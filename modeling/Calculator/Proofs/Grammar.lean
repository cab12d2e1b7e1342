import Calculator.Proofs.Chain
import Calculator.Proofs.Numeral
import Calculator.Proofs.Postorder
import Calculator.Proofs.Scan

/-!
# The grammar of expressions

An expression without blanks is operands with binary operators between them.
An operand is a number, a variable, an expression in brackets, or a function
with as many expressions in brackets as it takes, separated by commas. The
grammar gives every expression its tree: an operator of a higher class binds
tighter, and operators of one class are applied from left to right.
-/

namespace Calculator

/-- What an operand or an expression stands directly after. -/
inductive Context where
  | start
  | operator
  | separator
  /-- An opening bracket that stands after something itself. -/
  | bracket (outer : Context)
  /-- The opening bracket of a call. -/
  | call

namespace Context

/-- A sign may stand at the start, after an operator, and after a bracket that follows neither an
operator nor another bracket. -/
def allowsSign : Context → Bool
  | .start | .operator | .call => true
  | .separator => false
  | .bracket .start | .bracket .separator => true
  | .bracket .operator | .bracket (.bracket _) | .bracket .call => false

end Context

def Tree.apply (operator : Operator) (left right : Tree) : Tree :=
  .node (.operator operator) [left, right]

/-- The tree of a chain: the tightest operators are applied first, and from left to right. -/
def Chain.tree (chain : Chain Tree) : Tree :=
  chain.grouped Tree.apply

/-- What a part of a source is, with its trees. -/
inductive Shape where
  | operand (tree : Tree)
  | expression (chain : Chain Tree)
  | arguments (trees : List Tree)

/-- The characters have the shape when they stand in the context and signs may stand as told. -/
inductive Derives (registry : Registry) (signs : Context → Bool) :
    Shape → Context → List Char → Prop where
  | number {context : Context} {written : Written}
      (valid : written.Valid registry (signs context)) :
      Derives registry signs (.operand (.node (.literal written.value) [])) context written.chars
  | binding {context : Context} {name : String} {value : Float}
      (found : registry.bindings.find? name = some value) :
      Derives registry signs (.operand (.node (.literal value) [])) context name.toList
  | bracket {context : Context} {chain : Chain Tree} {inner : List Char}
      (inside : Derives registry signs (.expression chain) (.bracket context) inner) :
      Derives registry signs (.operand chain.tree) context ('(' :: inner ++ [')'])
  | call {context : Context} {name : String} {definition : Function} {trees : List Tree}
      {inner : List Char} (found : registry.functions.find? name = some definition)
      (inside : Derives registry signs (.arguments trees) .call inner)
      (count : trees.length = definition.arity) :
      Derives registry signs (.operand (.node (.function definition) trees)) context
        (name.toList ++ '(' :: inner ++ [')'])
  | single {context : Context} {tree : Tree} {chars : List Char}
      (only : Derives registry signs (.operand tree) context chars) :
      Derives registry signs (.expression (.single tree)) context chars
  | operator {context : Context} {chain : Chain Tree} {symbol : Char} {definition : Operator}
      {tree : Tree} {before after : List Char}
      (left : Derives registry signs (.expression chain) context before)
      (known : registry.operators.find? symbol = some definition)
      (right : Derives registry signs (.operand tree) .operator after) :
      Derives registry signs (.expression (chain.extend definition tree)) context
        (before ++ symbol :: after)
  | argument {context : Context} {chain : Chain Tree} {chars : List Char}
      (only : Derives registry signs (.expression chain) context chars) :
      Derives registry signs (.arguments [chain.tree]) context chars
  | separator {context : Context} {trees : List Tree} {chain : Chain Tree}
      {before after : List Char}
      (left : Derives registry signs (.arguments trees) context before)
      (right : Derives registry signs (.expression chain) .separator after) :
      Derives registry signs (.arguments (trees ++ [chain.tree])) context
        (before ++ ',' :: after)

namespace Derives

variable {registry : Registry}

/-- Where signs may stand in more places nothing is lost. -/
theorem mono {signs more : Context → Bool} (le : ∀ context, signs context = true → more context = true)
    {shape : Shape} {context : Context} {chars : List Char}
    (derives : Derives registry signs shape context chars) :
    Derives registry more shape context chars := by
  induction derives with
  | @number context written valid =>
      refine .number ⟨?_, valid.digits, valid.nonempty⟩
      intro c member
      obtain ⟨allowed, rest⟩ := valid.sign c member
      exact ⟨le context allowed, rest⟩
  | binding found => exact .binding found
  | bracket _ ih => exact .bracket ih
  | call found _ count ih => exact .call found ih count
  | single _ ih => exact .single ih
  | operator _ known _ ihLeft ihRight => exact .operator ihLeft known ihRight
  | argument _ ih => exact .argument ih
  | separator _ _ ihLeft ihRight => exact .separator ihLeft ihRight

end Derives

/-- All items of the trees have their operands. -/
def Shape.Complete : Shape → Prop
  | .operand tree => tree.Complete
  | .expression chain => chain.All Tree.Complete
  | .arguments trees => Tree.AllComplete trees

theorem Tree.complete_of_all {chain : Chain Tree} (all : chain.All Complete) :
    chain.tree.Complete := by
  refine all.grouped ?_
  intro operator left right completeLeft completeRight
  exact ⟨rfl, completeLeft, completeRight, trivial⟩

theorem Derives.complete {registry : Registry} {signs : Context → Bool} {shape : Shape}
    {context : Context} {chars : List Char}
    (derives : Derives registry signs shape context chars) : shape.Complete := by
  induction derives with
  | number _ => exact ⟨rfl, trivial⟩
  | binding _ => exact ⟨rfl, trivial⟩
  | bracket _ ih => exact Tree.complete_of_all ih
  | call _ _ count ih => exact ⟨count, ih⟩
  | single _ ih => exact ⟨ih, by simp [Chain.single]⟩
  | operator _ _ _ ihLeft ihRight => exact ihLeft.extend _ ihRight
  | argument _ ih => exact ⟨Tree.complete_of_all ih, trivial⟩
  | separator _ _ ihLeft ihRight =>
      exact Tree.allComplete_append.2 ⟨ihLeft, Tree.complete_of_all ihRight, trivial⟩

end Calculator
