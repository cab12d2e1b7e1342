import Calculator.Compile

/-!
# Errors of a compilation

Every parse error of a compilation is of a kind that tells what is wrong; the
kind that stands for no error is never the answer of a step that fails.
-/

namespace Calculator

/-- A failure tells what is wrong. -/
def Telling {α : Type} (outcome : Except ParseError α) : Prop :=
  ∀ error, outcome = .error error → error.isError = true

namespace Telling

variable {α β : Type}

theorem ok (value : α) : Telling (.ok value) := by
  intro error failed
  cases failed

theorem error {error : ParseError} (tells : error.isError = true) :
    Telling (.error error : Except ParseError α) := by
  intro other failed
  cases failed
  exact tells

theorem bind {first : Except ParseError α} {next : α → Except ParseError β}
    (tells : Telling first) (later : ∀ value, Telling (next value)) : Telling (first >>= next) := by
  intro error failed
  cases outcome : first with
  | error other =>
      rw [outcome] at failed
      cases failed
      exact tells error outcome
  | ok value =>
      rw [outcome] at failed
      exact later value error failed

theorem map {outcome : Except ParseError α} (tells : Telling outcome) (f : α → β) :
    Telling (outcome.map f) := by
  cases outcome with
  | error other => exact error (tells other rfl)
  | ok value => exact ok (f value)

theorem foldlM {step : α → β → Except ParseError α} (tells : ∀ state x, Telling (step state x))
    (list : List β) (state : α) : Telling (list.foldlM step state) := by
  induction list generalizing state with
  | nil => exact ok state
  | cons x rest ih =>
      rw [List.foldlM_cons]
      exact (tells state x).bind ih

end Telling

theorem Registry.telling_callee (registry : Registry) (word : String) :
    Telling (registry.callee word) := by
  unfold callee
  split
  · exact .ok _
  · exact .error rfl

theorem Registry.telling_valueOf (registry : Registry) (word : String) :
    Telling (registry.valueOf word) := by
  unfold valueOf
  split
  · split
    · exact .ok _
    · exact .error rfl
  · split
    · exact .ok _
    · split
      · exact .error rfl
      · exact .error rfl

namespace Assembly

theorem telling_separate (assembly : Assembly) : Telling assembly.separate := by
  unfold separate
  split
  · exact .ok _
  · exact .error rfl

theorem telling_closeBracket (assembly : Assembly) : Telling assembly.closeBracket := by
  unfold closeBracket
  split
  · split
    · exact .ok _
    · exact .error rfl
  · split
    · exact .ok _
    · exact .error rfl
  · exact .error rfl

theorem telling_accept (registry : Registry) (assembly : Assembly) (token : Token) :
    Telling (accept registry assembly token) := by
  cases token with
  | word text =>
      rw [accept_word_eq]
      exact (registry.telling_valueOf text).map _
  | call text =>
      rw [accept_call_eq]
      exact (registry.telling_callee text).map _
  | operator symbol =>
      rw [accept]
      split
      · exact .ok _
      · exact .error rfl
  | openBracket => exact .ok _
  | separator => exact telling_separate assembly
  | closeBracket => exact telling_closeBracket assembly
  | misplacedSign => exact .error rfl

theorem telling_finish (assembly : Assembly) : Telling assembly.finish := by
  unfold finish
  split
  · exact .ok _
  · exact .error rfl

end Assembly

theorem telling_assemble (registry : Registry) (source : List Char) :
    Telling (assemble registry source) :=
  .bind (.foldlM (Assembly.telling_accept registry) _ _) Assembly.telling_finish

theorem Item.telling_stack (maxDepth : Int) (heights : List Nat) (item : Item) :
    Telling (item.stack maxDepth heights) := by
  unfold stack
  split
  · exact .error rfl
  · dsimp only
    split
    · exact .error rfl
    · exact .ok _

theorem telling_checkOperands (items : List Item) (maxDepth : Int) :
    Telling (checkOperands items maxDepth) := by
  refine .bind (.foldlM (Item.telling_stack maxDepth) items []) ?_
  intro heights
  split
  · exact .ok ()
  · exact .error rfl

/-- The error of an expression that does not compile is an error. -/
theorem telling_compile (registry : Registry) (expression : String) (maxDepth : Int) :
    Telling (compile registry expression maxDepth) := by
  refine .bind (telling_assemble registry _) ?_
  intro items
  refine .bind (telling_checkOperands items maxDepth) ?_
  intro _
  exact .ok _

end Calculator
