import Calculator.Proofs.Scan
import Calculator.Proofs.Stack

/-!
# Brackets of a source

An operator of the lowest class is kept on the stack as a bracket, and a closing
bracket may close it. So the closing brackets of a source that compiles match
its opening brackets and such operators together, and they match the opening
brackets alone exactly when the source has no such operator.
-/

namespace Calculator

/-- No prefix closes more brackets than it opens, and all brackets are closed. -/
structure Matched (source : List Char) : Prop where
  opened : ∀ before, before <+: source → before.count ')' ≤ before.count '('
  closed : source.count ')' = source.count '('

namespace Token

def isOpening : Token → Bool
  | .openBracket | .call _ => true
  | _ => false

def isClosing : Token → Bool
  | .closeBracket => true
  | _ => false

end Token

/-! ## Brackets of the tokens -/

namespace Scan

variable {isOperator : Char → Bool}

theorem countP_finish {p : Token → Bool} (noWord : ∀ text, p (.word text) = false) (scan : Scan) :
    scan.finish.countP p = 0 := by
  unfold finish
  split
  · rfl
  · simp [noWord]

theorem countP_close {p : Token → Bool} (noWord : ∀ text, p (.word text) = false) (scan : Scan)
    (token : Token) (position : Position) :
    (scan.close token position).1.countP p = [token].countP p := by
  rw [close_eq, List.countP_append, countP_finish noWord, Nat.zero_add]

/-- A character is a bracket when it ends a token that is one. -/
theorem countP_read (symbols : Unreserved isOperator) (scan : Scan) (c : Char) :
    (scan.read isOperator c).1.countP Token.isOpening = [c].count '(' ∧
      (scan.read isOperator c).1.countP Token.isClosing = [c].count ')' := by
  have ordinary (free : isReserved c = false) : 0 = [c].count '(' ∧ 0 = [c].count ')' :=
    (count_of_not_reserved free).imp Eq.symm Eq.symm
  rcases read_cases symbols scan c with ⟨operator, inside⟩ | ⟨operator, nested⟩ |
    ⟨notOperator, rfl | rfl | rfl⟩ | ⟨notReserved, sign⟩
  · rw [read_operator operator inside, countP_close (fun _ => rfl), countP_close (fun _ => rfl)]
    exact ordinary (symbols c operator)
  · rw [read_misplacedSign operator nested]
    exact ordinary (symbols c operator)
  · rw [read_openBracket scan notOperator]
    by_cases empty : scan.word = []
    · rw [if_pos empty]
      exact ⟨rfl, rfl⟩
    · rw [if_neg empty]
      exact ⟨rfl, rfl⟩
  · rw [read_closeBracket scan notOperator, countP_close (fun _ => rfl),
      countP_close (fun _ => rfl)]
    exact ⟨rfl, rfl⟩
  · rw [read_separator scan notOperator, countP_close (fun _ => rfl), countP_close (fun _ => rfl)]
    exact ⟨rfl, rfl⟩
  · rw [read_extend notReserved sign]
    exact ordinary notReserved

theorem countP_run (symbols : Unreserved isOperator) (scan : Scan) (source : List Char) :
    (scan.run isOperator source).1.countP Token.isOpening = source.count '(' ∧
      (scan.run isOperator source).1.countP Token.isClosing = source.count ')' := by
  induction source generalizing scan with
  | nil => exact ⟨rfl, rfl⟩
  | cons c rest ih =>
      obtain ⟨openingHere, closingHere⟩ := countP_read symbols scan c
      obtain ⟨openingLater, closingLater⟩ := ih (scan.read isOperator c).2
      have split (bracket : Char) :
          (c :: rest).count bracket = [c].count bracket + rest.count bracket := by
        rw [← List.singleton_append, List.count_append]
      simp only [run, List.countP_append]
      constructor
      · rw [openingHere, openingLater, split]
      · rw [closingHere, closingLater, split]

end Scan

/-! ## Brackets of the stack -/

variable {registry : Registry}

/-- The token is an operator that is kept as a bracket. -/
def Registry.opensWith (registry : Registry) : Token → Bool
  | .operator symbol =>
      (registry.operators.find? symbol).any fun definition => definition.precedence = .openBracket
  | _ => false

namespace Assembly

theorem brackets_pushOperator (assembly : Assembly) (definition : Operator) :
    (brackets (assembly.pushOperator definition).pending).length =
      (brackets assembly.pending).length +
        if definition.precedence = .openBracket then 1 else 0 := by
  by_cases lowest : definition.precedence = .openBracket
  · rw [← brackets_release definition.precedence assembly.pending assembly.output, pushOperator,
      push, entryOf, if_pos lowest, if_pos lowest]
    rfl
  · rw [brackets_pushOperator_of_ne assembly lowest, if_neg lowest]
    rfl

/-- What a token opens is on the stack after it, and what it closes no longer is. -/
theorem brackets_accepts {assembly next : Assembly} {token : Token}
    (accepts : Accepts registry assembly token next) :
    (brackets next.pending).length + [token].countP Token.isClosing =
      (brackets assembly.pending).length +
        ([token].countP Token.isOpening + [token].countP registry.opensWith) := by
  cases accepts with
  | word known => rfl
  | call known => rfl
  | operator known =>
      rw [brackets_pushOperator]
      simp [Token.isClosing, Token.isOpening, Registry.opensWith, known, List.countP_singleton]
  | openBracket => rfl
  | separator unwound =>
      rw [← brackets_unwind unwound]
      rfl
  | closeBracket unwound closes =>
      rw [← brackets_unwind unwound]
      rfl

theorem brackets_acceptAll {tokens : List Token} {assembly : Assembly}
    (accepted : empty.acceptAll registry tokens = .ok assembly) :
    (brackets assembly.pending).length + tokens.countP Token.isClosing =
      tokens.countP Token.isOpening + tokens.countP registry.opensWith := by
  refine acceptAll_induction (motive := fun read reached =>
    (brackets reached.pending).length + read.countP Token.isClosing =
      read.countP Token.isOpening + read.countP registry.opensWith) ?_ [] rfl accepted
  intro read reached token next before accepts
  have step := brackets_accepts accepts
  rw [List.countP_append, List.countP_append, List.countP_append]
  omega

/-- All brackets are closed at the end. -/
theorem brackets_finish {assembly : Assembly} {items : List Item}
    (finished : assembly.finish = .ok items) : brackets assembly.pending = [] := by
  obtain ⟨output, unwound, _⟩ := finish_eq_ok finished
  rw [← brackets_unwind unwound]
  rfl

end Assembly

/-! ## Brackets of the characters -/

/-- How many operators among the characters are kept as brackets. -/
def Registry.openingOperators (registry : Registry) (source : List Char) : Nat :=
  (Scan.initial.run registry.isOperator source).1.countP registry.opensWith

theorem Registry.openingOperators_eq (registry : Registry) (source : List Char) :
    registry.openingOperators source =
      (Token.ofSource registry.isOperator source).countP registry.opensWith := by
  rw [Token.ofSource, Scan.tokens_eq_run, List.countP_append, Scan.countP_finish fun _ => rfl]
  rfl

theorem Registry.openingOperators_le (registry : Registry) {source before : List Char}
    (begins : before <+: source) :
    registry.openingOperators before ≤ registry.openingOperators source := by
  obtain ⟨after, rfl⟩ := begins
  rw [openingOperators, openingOperators, Scan.run_append, List.countP_append]
  exact Nat.le_add_right _ _

/-- What a prefix of an assembled source closes is open before it or in it. -/
theorem count_close_le (symbols : Unreserved registry.isOperator) {source before : List Char}
    {items : List Item} (assembled : assemble registry source = .ok items)
    (begins : before <+: source) :
    before.count ')' ≤ before.count '(' + registry.openingOperators before := by
  obtain ⟨after, rfl⟩ := begins
  obtain ⟨last, accepted, _⟩ := assemble_eq_ok assembled
  rw [Token.ofSource, Scan.tokens_append, Assembly.acceptAll_append] at accepted
  obtain ⟨assembly, first, _⟩ := bind_eq_ok accepted
  have balance := Assembly.brackets_acceptAll first
  obtain ⟨opening, closing⟩ := Scan.countP_run symbols Scan.initial before
  rw [opening, closing] at balance
  exact Nat.le.intro (by rw [Nat.add_comm]; exact balance)

theorem count_close_eq (symbols : Unreserved registry.isOperator) {source : List Char}
    {items : List Item} (assembled : assemble registry source = .ok items) :
    source.count ')' = source.count '(' + registry.openingOperators source := by
  obtain ⟨last, accepted, finished⟩ := assemble_eq_ok assembled
  have balance := Assembly.brackets_acceptAll accepted
  obtain ⟨opening, closing⟩ := Scan.countP_run symbols Scan.initial source
  rw [Assembly.brackets_finish finished, ← registry.openingOperators_eq, Token.ofSource,
    Scan.tokens_eq_run, List.countP_append, List.countP_append, Scan.countP_finish (fun _ => rfl),
    Scan.countP_finish (fun _ => rfl), opening, closing, List.length_nil, Nat.zero_add] at balance
  exact balance

/--
In a source that compiles every closing bracket closes an opening bracket or an operator of the
lowest class, and each of them is closed. So the brackets match when there is no such operator, and
only then.
-/
theorem matched_iff_of_compile (built : registry.Built) {expression : String} {maxDepth : Int}
    {program : Program} (compiled : compile registry expression maxDepth = .ok program) :
    (∀ before, before <+: (Text.stripBlanks expression).toList →
      before.count ')' ≤ before.count '(' + registry.openingOperators before) ∧
    (Text.stripBlanks expression).toList.count ')' =
      (Text.stripBlanks expression).toList.count '(' +
        registry.openingOperators (Text.stripBlanks expression).toList ∧
    (Matched (Text.stripBlanks expression).toList ↔
      registry.openingOperators (Text.stripBlanks expression).toList = 0) := by
  obtain ⟨items, assembled, _⟩ := compile_eq_ok_iff.1 compiled
  have within (before : List Char) (begins : before <+: (Text.stripBlanks expression).toList) :=
    count_close_le built.unreserved assembled begins
  have total := count_close_eq built.unreserved assembled
  refine ⟨within, total, ?_⟩
  constructor
  · intro isMatched
    have closed := isMatched.closed
    omega
  · intro none
    refine ⟨?_, by omega⟩
    intro before begins
    have here := within before begins
    have noneBefore := registry.openingOperators_le begins
    omega

/-- A difference, and an operator of the lowest class. -/
def Registry.fenced : Registry where
  operators := .ofList
    [('-', ⟨'-', .add, .binary fun x y => .ok (x - y), "x - y"⟩),
      ('#', ⟨'#', .openBracket, .binary fun x _ => .ok x, "x # y"⟩)]
  functions := .empty
  bindings := .empty

theorem Registry.built_fenced : fenced.Built :=
  @Built.operator _ _ "#" .openBracket 2 (.binary fun x _ => .ok x) "x # y"
    (@Built.operator _ _ "-" .add 2 (.binary fun x y => .ok (x - y)) "x - y" .empty rfl) rfl

theorem matched_iff_of_compile_fenced :
    ∃ program, compile Registry.fenced "(5 #) - 1)" 3 = .ok program ∧
      Registry.fenced.openingOperators (Text.stripBlanks "(5 #) - 1)").toList = 1 ∧
      ¬ Matched (Text.stripBlanks "(5 #) - 1)").toList := by
  have compiled : ∃ program, compile Registry.fenced "(5 #) - 1)" 3 = .ok program :=
    ⟨_, by rfl⟩
  obtain ⟨program, compiled⟩ := compiled
  have one : Registry.fenced.openingOperators (Text.stripBlanks "(5 #) - 1)").toList = 1 := rfl
  obtain ⟨_, _, characterised⟩ := matched_iff_of_compile Registry.built_fenced compiled
  refine ⟨program, compiled, one, ?_⟩
  intro isMatched
  have none := characterised.1 isMatched
  rw [one] at none
  cases none

/-- A closing bracket without an opening one closes the operator before it. -/
theorem not_matched_of_lowest_operator :
    Registry.fenced.Built ∧
      (∃ program, compile Registry.fenced "1#)" defaultMaxDepth = .ok program) ∧
      ¬ Matched (Text.stripBlanks "1#)").toList := by
  refine ⟨Registry.built_fenced, ⟨_, by rfl⟩, ?_⟩
  intro isMatched
  exact absurd isMatched.closed (by decide)

end Calculator
