import Calculator.Proofs.Evaluation
import Calculator.Proofs.Stack
import Calculator.Registry.Built

/-!
# What a compilation reads of a registry

Two registries with the same operators compile a source in the same way when
they agree on its words: on the functions that bear them and on which of them
are variables. The values of the variables show in the literals of the program
and nowhere else. Further functions and variables change no program.
-/

namespace Calculator

/-! ## Words -/

namespace Token

/-- The word of a token, called or not. -/
def text? : Token → Option String
  | .word text | .call text => some text
  | _ => none

/-- The word of a token that stands for a value. -/
def valueWord? : Token → Option String
  | .word text => some text
  | _ => none

end Token

/-- Every symbol is the same operator in both registries, or none. -/
def SameOperators (first second : Registry) : Prop :=
  ∀ symbol, first.operators.find? symbol = second.operators.find? symbol

theorem SameOperators.isOperator_eq {first second : Registry}
    (operators : SameOperators first second) : second.isOperator = first.isOperator := by
  funext c
  rw [Registry.isOperator, Registry.isOperator, Table.contains, Table.contains, operators c]

/-- Whether a word is a number depends on the operators only. -/
theorem Registry.isNumberWord_congr {first second : Registry}
    (same : second.isOperator = first.isOperator) (text : String) :
    second.isNumberWord text = first.isNumberWord text := by
  unfold isNumberWord
  rw [same]

/-- The same function bears the word in both registries, or none, and it is a variable of both or of
neither. -/
structure SameWord (first second : Registry) (text : String) : Prop where
  function : first.functions.find? text = second.functions.find? text
  binding : first.bindings.contains text = second.bindings.contains text

/-- The values of one word: the same for a number, each registry's own for a variable. -/
inductive Reading (first second : Registry) (text : String) : Float → Float → Prop where
  | number {value : Float} (numeric : first.isNumberWord text = true)
      (read : Registry.number? text = some value) : Reading first second text value value
  | binding {value other : Float} (named : first.isNumberWord text = false)
      (found : first.bindings.find? text = some value)
      (foundOther : second.bindings.find? text = some other) :
      Reading first second text value other

/-- Items that differ at most in the values of the words they come from, which stand in order. -/
inductive Aligned (first second : Registry) : List String → List Item → List Item → Prop where
  | nil : Aligned first second [] [] []
  | literal {text : String} {value other : Float} {words : List String} {items others : List Item}
      (reading : Reading first second text value other)
      (later : Aligned first second words items others) :
      Aligned first second (text :: words) (.literal value :: items) (.literal other :: others)
  | operator {words : List String} {items others : List Item} (definition : Operator)
      (later : Aligned first second words items others) :
      Aligned first second words (.operator definition :: items) (.operator definition :: others)
  | function {words : List String} {items others : List Item} (definition : Function)
      (later : Aligned first second words items others) :
      Aligned first second words (.function definition :: items) (.function definition :: others)

variable {first second : Registry}

namespace Aligned

variable {words : List String} {items others : List Item}

theorem append {moreWords : List String} {more moreOthers : List Item}
    (aligned : Aligned first second words items others)
    (after : Aligned first second moreWords more moreOthers) :
    Aligned first second (words ++ moreWords) (items ++ more) (others ++ moreOthers) := by
  induction aligned with
  | nil => exact after
  | literal reading _ ih => exact .literal reading ih
  | operator definition _ ih => exact .operator definition ih
  | function definition _ ih => exact .function definition ih

theorem reverse (aligned : Aligned first second words items others) :
    Aligned first second words.reverse items.reverse others.reverse := by
  induction aligned with
  | nil => exact .nil
  | literal reading _ ih =>
      simp only [List.reverse_cons]
      exact ih.append (.literal reading .nil)
  | @operator words _ _ definition _ ih =>
      simp only [List.reverse_cons]
      have whole := ih.append (.operator definition .nil)
      rwa [List.append_nil] at whole
  | function definition _ ih =>
      simp only [List.reverse_cons]
      have whole := ih.append (.function definition .nil)
      rwa [List.append_nil] at whole

theorem length_eq (aligned : Aligned first second words items others) :
    items.length = others.length := by
  induction aligned with
  | nil => rfl
  | literal _ _ ih => exact congrArg (· + 1) ih
  | operator _ _ ih => exact congrArg (· + 1) ih
  | function _ _ ih => exact congrArg (· + 1) ih

end Aligned

/-- A word is read alike where both registries agree on it. -/
theorem Registry.valueOf_agree (operators : SameOperators first second) {text : String}
    (same : SameWord first second text) :
    Agree (Reading first second text) (first.valueOf text) (second.valueOf text) := by
  have numeric := isNumberWord_congr operators.isOperator_eq text
  have binding := same.binding
  have function : second.functions.contains text = first.functions.contains text := by
    rw [Table.contains, Table.contains, same.function]
  unfold Table.contains at binding
  unfold valueOf
  rw [numeric, function]
  cases kind : first.isNumberWord text with
  | true =>
      cases read : number? text with
      | none => exact .error _
      | some value => exact .ok (.number kind read)
  | false =>
      cases found : first.bindings.find? text with
      | none =>
          rw [found] at binding
          rw [Option.not_isSome_iff_eq_none.1 (Bool.eq_false_iff.1 binding.symm)]
          cases first.functions.contains text with
          | true => exact .error _
          | false => exact .error _
      | some value =>
          rw [found] at binding
          obtain ⟨other, foundOther⟩ := Option.isSome_iff_exists.1 binding.symm
          rw [foundOther]
          exact .ok (.binding kind found foundOther)

theorem Registry.callee_eq {text : String} (same : SameWord first second text) :
    second.callee text = first.callee text := by
  unfold callee
  rw [same.function]

/-! ## Two assemblies in step -/

/-- The stacks are the same and the outputs aligned; the words are those read so far, last first. -/
structure Parallel (first second : Registry) (words : List String) (assembly other : Assembly) :
    Prop where
  pending : assembly.pending = other.pending
  output : Aligned first second words assembly.output other.output

namespace Parallel

variable {words : List String} {assembly other : Assembly}

theorem release (bound : Precedence) (pending : List Pending) {output outputOther : List Item}
    (aligned : Aligned first second words output outputOther) :
    Parallel first second words (Assembly.release bound pending output)
      (Assembly.release bound pending outputOther) := by
  induction pending generalizing output outputOther with
  | nil => exact ⟨rfl, aligned⟩
  | cons entry rest ih =>
      cases entry with
      | operator definition =>
          unfold Assembly.release
          split
          · exact ih (.operator definition aligned)
          · exact ⟨rfl, aligned⟩
      | function definition => exact ih (.function definition aligned)
      | bracket call separators => exact ⟨rfl, aligned⟩

theorem unwind (parallel : Parallel first second words assembly other) :
    ∃ pending output outputOther, assembly.unwind = ⟨pending, output⟩ ∧
      other.unwind = ⟨pending, outputOther⟩ ∧
      Aligned first second words output outputOther := by
  have inStep := release .openBracket assembly.pending parallel.output
  refine ⟨assembly.unwind.pending, assembly.unwind.output, other.unwind.output, rfl, ?_, ?_⟩
  · unfold Assembly.unwind
    rw [← parallel.pending, inStep.pending]
  · unfold Assembly.unwind
    rw [← parallel.pending]
    exact inStep.output

theorem push (parallel : Parallel first second words assembly other) (entry : Pending) :
    Parallel first second words (assembly.push entry) (other.push entry) :=
  ⟨congrArg (entry :: ·) parallel.pending, parallel.output⟩

theorem emit (parallel : Parallel first second words assembly other) {text : String}
    {value valueOther : Float} (reading : Reading first second text value valueOther) :
    Parallel first second (text :: words) (assembly.emit (.literal value))
      (other.emit (.literal valueOther)) :=
  ⟨parallel.pending, .literal reading parallel.output⟩

theorem pushOperator (parallel : Parallel first second words assembly other)
    (definition : Operator) :
    Parallel first second words (assembly.pushOperator definition)
      (other.pushOperator definition) := by
  unfold Assembly.pushOperator
  rw [← parallel.pending]
  exact (release _ _ parallel.output).push _

theorem separate (parallel : Parallel first second words assembly other) :
    Agree (Parallel first second words) assembly.separate other.separate := by
  obtain ⟨pending, output, outputOther, unwound, unwoundOther, aligned⟩ := parallel.unwind
  rw [Assembly.separate, unwound, Assembly.separate, unwoundOther]
  cases pending with
  | nil => exact .error _
  | cons entry rest =>
      cases entry with
      | operator definition => exact .error _
      | function definition => exact .error _
      | bracket call separators => exact .ok ⟨rfl, aligned⟩

theorem closeBracket (parallel : Parallel first second words assembly other) :
    Agree (Parallel first second words) assembly.closeBracket other.closeBracket := by
  obtain ⟨pending, output, outputOther, unwound, unwoundOther, aligned⟩ := parallel.unwind
  rw [Assembly.closeBracket, unwound, Assembly.closeBracket, unwoundOther]
  cases pending with
  | nil => exact .error _
  | cons entry rest =>
      cases entry with
      | operator definition => exact .error _
      | function definition => exact .error _
      | bracket call separators =>
          cases call with
          | none =>
              dsimp only
              split
              · exact .ok ⟨rfl, aligned⟩
              · exact .error _
          | some definition =>
              dsimp only
              split
              · exact .ok ⟨rfl, aligned⟩
              · exact .error _

theorem finish (parallel : Parallel first second words assembly other) :
    Agree (Aligned first second words.reverse) assembly.finish other.finish := by
  obtain ⟨pending, output, outputOther, unwound, unwoundOther, aligned⟩ := parallel.unwind
  rw [Assembly.finish, unwound, Assembly.finish, unwoundOther]
  cases pending with
  | nil => exact .ok aligned.reverse
  | cons entry rest => exact .error _

/-- One token keeps two assemblies in step when the registries agree on its word. -/
theorem accept (operators : SameOperators first second)
    (parallel : Parallel first second words assembly other) {token : Token}
    (same : ∀ text, token.text? = some text → SameWord first second text) :
    Agree (Parallel first second (token.valueWord?.toList ++ words))
      (Assembly.accept first assembly token) (Assembly.accept second other token) := by
  cases token with
  | word text =>
      rw [Assembly.accept_word_eq, Assembly.accept_word_eq]
      exact (Registry.valueOf_agree operators (same text rfl)).map fun value other reading =>
        parallel.emit reading
  | call text =>
      rw [Assembly.accept_call_eq, Assembly.accept_call_eq, Registry.callee_eq (same text rfl)]
      refine (Agree.refl (first.callee text)).map ?_
      rintro definition _ rfl
      exact (parallel.push _).push _
  | operator symbol =>
      rw [Assembly.accept, Assembly.accept, operators symbol]
      cases second.operators.find? symbol with
      | none => exact .error _
      | some definition => exact .ok (parallel.pushOperator definition)
  | openBracket => exact .ok (parallel.push _)
  | separator => exact parallel.separate
  | closeBracket => exact parallel.closeBracket
  | misplacedSign => exact .error _

/-- Two assemblies stay in step while the registries agree on the words that are reached. -/
theorem acceptAll (operators : SameOperators first second) {tokens : List Token}
    (parallel : Parallel first second words assembly other)
    (same : ∀ before token after reached, tokens = before ++ token :: after →
      assembly.acceptAll first before = .ok reached →
      ∀ text, token.text? = some text → SameWord first second text) :
    Agree (Parallel first second ((tokens.filterMap Token.valueWord?).reverse ++ words))
      (assembly.acceptAll first tokens) (other.acceptAll second tokens) := by
  induction tokens generalizing words assembly other with
  | nil => exact .ok parallel
  | cons token rest ih =>
      have here := same [] token rest assembly rfl rfl
      rw [Assembly.acceptAll, Assembly.acceptAll, List.foldlM_cons, List.foldlM_cons]
      refine (parallel.accept operators here).bind ?_
      intro next nextOther accepted inStep
      have later := ih inStep (by
        intro before later after reached split run
        refine same (token :: before) later after reached (congrArg (token :: ·) split) ?_
        rw [Assembly.acceptAll, List.foldlM_cons, accepted]
        exact run)
      have order : ((token :: rest).filterMap Token.valueWord?).reverse ++ words =
          (rest.filterMap Token.valueWord?).reverse ++ (token.valueWord?.toList ++ words) := by
        cases word : token.valueWord? with
        | none => simp [word]
        | some text => simp [word]
      rw [order]
      exact later

end Parallel

/-! ## The operand check -/

/-- The check sees of a literal only that it is one. -/
theorem Item.stack_literal (maxDepth : Int) (heights : List Nat) (value other : Float) :
    Item.stack maxDepth heights (.literal value) =
      Item.stack maxDepth heights (.literal other) := by
  unfold Item.stack
  have none : ¬ heights.length < 0 := Nat.not_lt_zero _
  rw [Item.arity, Item.arity, if_neg none, if_neg none]

theorem Aligned.checkOperands {words : List String} {items others : List Item}
    (aligned : Aligned first second words items others) (maxDepth : Int) :
    checkOperands items maxDepth = checkOperands others maxDepth := by
  have heights (start : List Nat) : items.foldlM (Item.stack maxDepth) start =
      others.foldlM (Item.stack maxDepth) start := by
    induction aligned generalizing start with
    | nil => rfl
    | @literal _ value other _ _ _ _ _ ih =>
        rw [List.foldlM_cons, List.foldlM_cons, Item.stack_literal maxDepth start value other]
        exact congrArg _ (funext ih)
    | operator definition _ ih =>
        rw [List.foldlM_cons, List.foldlM_cons]
        exact congrArg _ (funext ih)
    | function definition _ ih =>
        rw [List.foldlM_cons, List.foldlM_cons]
        exact congrArg _ (funext ih)
  rw [Calculator.checkOperands, Calculator.checkOperands, heights]

/-! ## Two compilations -/

/-- The assembly comes to the token: every token before it is accepted. -/
def Registry.Reaches (registry : Registry) (source : List Char) (token : Token) : Prop :=
  ∃ before after assembly,
    Token.ofSource registry.isOperator source = before ++ token :: after ∧
      Assembly.empty.acceptAll registry before = .ok assembly

/-- The words of a source that stand for values, in order. -/
def Registry.valueWords (registry : Registry) (source : List Char) : List String :=
  (Token.ofSource registry.isOperator source).filterMap Token.valueWord?

theorem assemble_agree (operators : SameOperators first second) {source : List Char}
    (same : ∀ token text, first.Reaches source token → token.text? = some text →
      SameWord first second text) :
    Agree (Aligned first second (first.valueWords source)) (assemble first source)
      (assemble second source) := by
  have start : Parallel first second [] .empty .empty := ⟨rfl, .nil⟩
  rw [assemble, assemble, operators.isOperator_eq]
  refine (start.acceptAll operators ?_).bind ?_
  · intro before token after reached split run text word
    exact same token text ⟨before, after, reached, split, run⟩ word
  · intro assembly other _ parallel
    have finished := parallel.finish
    rw [List.append_nil, List.reverse_reverse] at finished
    exact finished

/-- Programs of one source that differ at most in the values of its variables. -/
structure SameProgram (first second : Registry) (words : List String) (program other : Program) :
    Prop where
  items : Aligned first second words program.items other.items
  length : program.items.length = other.items.length
  source : program.source = other.source
  maxDepth : program.maxDepth = other.maxDepth

theorem compile_agree (operators : SameOperators first second) {expression : String}
    (same : ∀ token text, first.Reaches (Text.stripBlanks expression).toList token →
      token.text? = some text → SameWord first second text) (maxDepth : Int) :
    Agree (SameProgram first second (first.valueWords (Text.stripBlanks expression).toList))
      (compile first expression maxDepth) (compile second expression maxDepth) := by
  refine (assemble_agree operators same).bind ?_
  intro items others _ aligned
  rw [aligned.checkOperands]
  refine (Agree.refl (checkOperands others maxDepth)).bind ?_
  intro _ _ _ _
  exact .ok ⟨aligned, aligned.length_eq, rfl, rfl⟩

/-! ## Further definitions -/

/-- Functions and variables are added to the registry, one after another. -/
inductive Registry.Grows (registry : Registry) : Registry → Prop where
  | refl : Grows registry registry
  | function {middle next : Registry} {name : String} {arity : Int} {rule : Rule} {usage : String}
      (grows : Grows registry middle)
      (accepted : middle.registerFunction name arity rule usage = .ok next) : Grows registry next
  | binding {middle next : Registry} {name : String} {value : Float} (grows : Grows registry middle)
      (accepted : middle.defineVariable name value = .ok next) : Grows registry next

/-- What the registry knows the next one knows too, and its operators are the same. -/
structure Registry.Extends (registry next : Registry) : Prop where
  operators : next.operators = registry.operators
  function : ∀ {name definition}, registry.functions.find? name = some definition →
    next.functions.find? name = some definition
  binding : ∀ {name value}, registry.bindings.find? name = some value →
    next.bindings.find? name = some value

namespace Registry

variable {registry next : Registry}

theorem Extends.registerFunction {name : String} {arity : Int} {rule : Rule} {usage : String}
    (accepted : registry.registerFunction name arity rule usage = .ok next) :
    registry.Extends next := by
  obtain ⟨_, _, new, rfl⟩ := registerFunction_eq_ok accepted
  exact ⟨rfl, Table.find?_insert_of_find? new, id⟩

theorem Extends.defineVariable {name : String} {value : Float}
    (accepted : registry.defineVariable name value = .ok next) : registry.Extends next := by
  obtain ⟨new, set⟩ := defineVariable_eq_ok accepted
  obtain ⟨_, rfl⟩ := setVariable_eq_ok set
  exact ⟨rfl, id, Table.find?_insert_of_find? new⟩

theorem Grows.extends (grows : registry.Grows next) : registry.Extends next := by
  induction grows with
  | refl => exact ⟨rfl, id, id⟩
  | function _ accepted ih =>
      have step := Extends.registerFunction accepted
      exact ⟨step.operators.trans ih.operators, fun found => step.function (ih.function found),
        fun found => step.binding (ih.binding found)⟩
  | binding _ accepted ih =>
      have step := Extends.defineVariable accepted
      exact ⟨step.operators.trans ih.operators, fun found => step.function (ih.function found),
        fun found => step.binding (ih.binding found)⟩

theorem Extends.isOperator_eq (wider : registry.Extends next) :
    next.isOperator = registry.isOperator := by
  unfold isOperator
  rw [wider.operators]

/-- A word with a value keeps it, whatever else its name is given to. -/
theorem Extends.valueOf (wider : registry.Extends next) {text : String} {value : Float}
    (known : registry.valueOf text = .ok value) : next.valueOf text = .ok value := by
  have numeric := isNumberWord_congr wider.isOperator_eq text
  unfold Registry.valueOf at known ⊢
  rw [numeric]
  cases kind : registry.isNumberWord text with
  | true =>
      rw [kind] at known
      exact known
  | false =>
      rw [kind] at known
      cases found : registry.bindings.find? text with
      | some old =>
          rw [found] at known
          rw [wider.binding found]
          exact known
      | none =>
          rw [found] at known
          dsimp only at known
          split at known
          next absent => cases absent
          next => split at known <;> cases known

theorem Extends.callee (wider : registry.Extends next) {text : String} {definition : Function}
    (known : registry.callee text = .ok definition) : next.callee text = .ok definition := by
  rw [Registry.callee, wider.function (find?_of_callee known)]

theorem Extends.accept (wider : registry.Extends next) {assembly reached : Assembly}
    {token : Token} (accepted : assembly.accept registry token = .ok reached) :
    assembly.accept next token = .ok reached := by
  cases token with
  | word text =>
      rw [Assembly.accept_word_eq] at accepted ⊢
      obtain ⟨value, known, rfl⟩ := map_eq_ok accepted
      rw [wider.valueOf known]
      rfl
  | call text =>
      rw [Assembly.accept_call_eq] at accepted ⊢
      obtain ⟨definition, known, rfl⟩ := map_eq_ok accepted
      rw [wider.callee known]
      rfl
  | operator symbol =>
      rw [Assembly.accept, wider.operators]
      exact accepted
  | openBracket => exact accepted
  | separator => exact accepted
  | closeBracket => exact accepted
  | misplacedSign => exact accepted

theorem Extends.acceptAll (wider : registry.Extends next) {tokens : List Token}
    {assembly reached : Assembly} (accepted : assembly.acceptAll registry tokens = .ok reached) :
    assembly.acceptAll next tokens = .ok reached := by
  induction tokens generalizing assembly with
  | nil => exact accepted
  | cons token rest ih =>
      rw [Assembly.acceptAll, List.foldlM_cons] at accepted
      obtain ⟨middle, here, later⟩ := bind_eq_ok accepted
      rw [Assembly.acceptAll, List.foldlM_cons, wider.accept here]
      exact ih later

/-- A program stays what it is when functions and variables are added. -/
theorem Grows.compile (grows : registry.Grows next) {expression : String} {maxDepth : Int}
    {program : Program} (compiled : compile registry expression maxDepth = .ok program) :
    Calculator.compile next expression maxDepth = .ok program := by
  have wider := grows.extends
  obtain ⟨items, assembled, passes, rfl⟩ := compile_eq_ok_iff.1 compiled
  obtain ⟨assembly, accepted, finished⟩ := assemble_eq_ok assembled
  refine compile_eq_ok_iff.2 ⟨items, ?_, passes, rfl⟩
  rw [assemble, wider.isOperator_eq, wider.acceptAll accepted]
  exact finished

end Registry

/--
Two registries with the same operators that agree on the words that are reached give the same error,
or programs that differ only in the literals of variables, each with the values of its own registry.
A program that compiles stays the same when functions and variables are added, whatever their names.
-/
theorem compile_reads_words (first : Registry) (expression : String) (maxDepth : Int) :
    (∀ second, SameOperators first second →
      (∀ token text, first.Reaches (Text.stripBlanks expression).toList token →
        token.text? = some text → SameWord first second text) →
      Agree (SameProgram first second (first.valueWords (Text.stripBlanks expression).toList))
        (compile first expression maxDepth) (compile second expression maxDepth)) ∧
    ∀ program, compile first expression maxDepth = .ok program →
      ∀ next, first.Grows next → compile next expression maxDepth = .ok program := by
  constructor
  · intro second operators same
    exact compile_agree operators same maxDepth
  · intro program compiled next grows
    exact grows.compile compiled

/-- The sample registry with other values, and with a variable more. -/
def Registry.reassigned : Registry :=
  { Registry.sample with bindings := .ofList [("b", 10.5), ("a", 20.5), ("c", 30.5)] }

theorem compile_reads_words_reassigned :
    (∃ program other, compile Registry.sample "min(a, 2) - b" 4 = .ok program ∧
      compile Registry.reassigned "min(a, 2) - b" 4 = .ok other ∧
      SameProgram Registry.sample Registry.reassigned ["a", "2", "b"] program other) ∧
    ∃ next, Registry.sample.defineVariable "min" 0.5 = .ok next ∧
      compile next "min(a, 2) - b" 4 = compile Registry.sample "min(a, 2) - b" 4 := by
  obtain ⟨agrees, stays⟩ := compile_reads_words Registry.sample "min(a, 2) - b" 4
  have compiled : ∃ program, compile Registry.sample "min(a, 2) - b" 4 = .ok program := ⟨_, by rfl⟩
  have compiledOther : ∃ other, compile Registry.reassigned "min(a, 2) - b" 4 = .ok other :=
    ⟨_, by rfl⟩
  have defined : ∃ next, Registry.sample.defineVariable "min" 0.5 = .ok next := ⟨_, by rfl⟩
  obtain ⟨program, compiled⟩ := compiled
  obtain ⟨other, compiledOther⟩ := compiledOther
  obtain ⟨next, defined⟩ := defined
  have same : ∀ token text,
      Registry.sample.Reaches (Text.stripBlanks "min(a, 2) - b").toList token →
      token.text? = some text → SameWord Registry.sample Registry.reassigned text := by
    rintro token text ⟨before, after, _, split, _⟩ word
    have listed : text ∈ (Token.ofSource Registry.sample.isOperator
        (Text.stripBlanks "min(a, 2) - b").toList).filterMap Token.text? := by
      rw [split]
      exact List.mem_filterMap.2 ⟨token, by simp, word⟩
    have words : (Token.ofSource Registry.sample.isOperator
        (Text.stripBlanks "min(a, 2) - b").toList).filterMap Token.text? = ["min", "a", "2", "b"] :=
      rfl
    rw [words] at listed
    simp only [List.mem_cons, List.not_mem_nil, or_false] at listed
    rcases listed with rfl | rfl | rfl | rfl
    · exact ⟨rfl, by decide⟩
    · exact ⟨rfl, by decide⟩
    · exact ⟨rfl, by decide⟩
    · exact ⟨rfl, by decide⟩
  constructor
  · have agree := agrees Registry.reassigned (fun _ => rfl) same
    rw [compiled, compiledOther] at agree
    cases agree with
    | ok inStep => exact ⟨program, other, compiled, compiledOther, inStep⟩
  · refine ⟨next, defined, ?_⟩
    rw [compiled]
    exact stays program compiled next (.binding .refl defined)

end Calculator
