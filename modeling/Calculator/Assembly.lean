import Calculator.Token
import Calculator.Word

/-!
# Assembly of programs

The tokens of an expression are put into postfix order. Values go straight
to the output; operators and functions wait on a stack until something that
binds less tightly, a separator or a closing bracket releases them. A bracket
on the stack shields what waits below it and counts the separators at its
level.
-/

namespace Calculator

inductive Pending where
  | operator (definition : Operator)
  | function (definition : Function)
  | bracket (call : Option Function) (separators : Nat)

/-- A program under assembly: the stack, top first, and the output, last item first. -/
structure Assembly where
  pending : List Pending
  output : List Item

namespace Assembly

def empty : Assembly := ⟨[], []⟩

/-- Moves entries that bind no looser than the bound to the output, down to the nearest bracket. -/
def release (bound : Precedence) : List Pending → List Item → Assembly
  | .operator definition :: rest, output =>
      if bound.rank ≤ definition.precedence.rank then
        release bound rest (.operator definition :: output)
      else ⟨.operator definition :: rest, output⟩
  | .function definition :: rest, output => release bound rest (.function definition :: output)
  | pending, output => ⟨pending, output⟩

/-- Moves every entry above the nearest bracket to the output. -/
def unwind (assembly : Assembly) : Assembly :=
  release .openBracket assembly.pending assembly.output

def emit (assembly : Assembly) (item : Item) : Assembly :=
  { assembly with output := item :: assembly.output }

def push (assembly : Assembly) (entry : Pending) : Assembly :=
  { assembly with pending := entry :: assembly.pending }

/-- An operator that binds like an opening bracket is kept as one. -/
def entryOf (definition : Operator) : Pending :=
  if definition.precedence = .openBracket then .bracket none 0 else .operator definition

def pushOperator (assembly : Assembly) (definition : Operator) : Assembly :=
  (release definition.precedence assembly.pending assembly.output).push (entryOf definition)

def openCall (assembly : Assembly) (definition : Function) : Assembly :=
  (assembly.push (.function definition)).push (.bracket (some definition) 0)

def separate (assembly : Assembly) : Except ParseError Assembly :=
  match assembly.unwind with
  | ⟨.bracket call separators :: rest, output⟩ =>
      .ok ⟨.bracket call (separators + 1) :: rest, output⟩
  | _ => .error (.malformed "")

/-- A call closes with as many separators as it has arguments but one, a plain bracket with none. -/
def closeBracket (assembly : Assembly) : Except ParseError Assembly :=
  match assembly.unwind with
  | ⟨.bracket (some definition) separators :: rest, output⟩ =>
      if separators + 1 = definition.arity then .ok ⟨rest, output⟩
      else .error (.malformed definition.name)
  | ⟨.bracket none separators :: rest, output⟩ =>
      if separators = 0 then .ok ⟨rest, output⟩ else .error (.malformed "")
  | _ => .error (.malformed "")

/-- A function that is called waits behind its bracket, and any other item is put out. -/
def take (assembly : Assembly) : Item → Assembly
  | .function definition => assembly.openCall definition
  | item => assembly.emit item

def accept (registry : Registry) (assembly : Assembly) : Token → Except ParseError Assembly
  | .word text => (registry.classify text false).map assembly.take
  | .call text => (registry.classify text true).map assembly.take
  | .operator symbol =>
      match registry.operators.find? symbol with
      | some definition => .ok (assembly.pushOperator definition)
      | none => .error (.malformed "")
  | .openBracket => .ok (assembly.push (.bracket none 0))
  | .separator => assembly.separate
  | .closeBracket => assembly.closeBracket
  | .misplacedSign => .error (.malformed "")

theorem accept_word_eq (registry : Registry) (assembly : Assembly) (text : String) :
    accept registry assembly (.word text) =
      (registry.valueOf text).map fun value => assembly.emit (.literal value) := by
  rw [accept, Registry.classify_word]
  cases registry.valueOf text <;> rfl

theorem accept_call_eq (registry : Registry) (assembly : Assembly) (text : String) :
    accept registry assembly (.call text) = (registry.callee text).map assembly.openCall := by
  rw [accept, Registry.classify_call]
  cases registry.callee text <;> rfl

def acceptAll (registry : Registry) (assembly : Assembly) (tokens : List Token) :
    Except ParseError Assembly :=
  tokens.foldlM (accept registry) assembly

/-- The items in their order; a bracket still open is an error. -/
def finish (assembly : Assembly) : Except ParseError (List Item) :=
  match assembly.unwind with
  | ⟨[], output⟩ => .ok output.reverse
  | _ => .error (.malformed "")

theorem acceptAll_append (registry : Registry) (assembly : Assembly) (first second : List Token) :
    assembly.acceptAll registry (first ++ second) =
      (assembly.acceptAll registry first).bind fun next => next.acceptAll registry second :=
  List.foldlM_append

end Assembly

end Calculator
