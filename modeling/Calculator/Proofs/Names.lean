import Calculator.Registry.Built

/-!
# Names and symbols

A name is accepted exactly when an expression could read it back. In a built
registry no operator symbol has another part in an expression, and when no
name contains a symbol that was registered after it, every name is still
usable.
-/

namespace Calculator.Registry

/-- No expression could read the name back. -/
def Unusable (registry : Registry) (name : String) : Prop :=
  name = "" ∨
    (∃ c ∈ name.toList, Text.isBlank c = true ∨ c = '(' ∨ c = ')' ∨ c = ',' ∨
      registry.isOperator c = true) ∨
    ∀ c ∈ name.toList, Text.isDigit c = true ∨ c = '.'

/-- Whether a name is usable depends on the operators only. -/
theorem unusable_congr {registry other : Registry} (same : registry.operators = other.operators)
    (name : String) : registry.Unusable name ↔ other.Unusable name := by
  unfold Unusable isOperator
  rw [same]

theorem isBarred_iff {registry : Registry} {c : Char} :
    registry.isBarred c = true ↔
      Text.isBlank c = true ∨ c = '(' ∨ c = ')' ∨ c = ',' ∨ registry.isOperator c = true := by
  simp [isBarred, isReserved, or_assoc]

theorem isNumberChar_iff {c : Char} : isNumberChar c = true ↔ Text.isDigit c = true ∨ c = '.' := by
  simp [isNumberChar]

theorem checkName_eq_ok_iff {registry : Registry} {kind : NameKind} {name : String} :
    registry.checkName kind name = .ok () ↔ ¬ registry.Unusable name := by
  unfold checkName Unusable
  by_cases empty : name = ""
  · simp [empty]
  · rw [if_neg empty]
    cases found : name.toList.find? registry.isBarred with
    | some c =>
        have barred := isBarred_iff.1 (List.find?_some found)
        constructor
        · intro accepted
          cases accepted
        · intro usable
          exact absurd (.inr (.inl ⟨c, List.mem_of_find?_eq_some found, barred⟩)) usable
    | none =>
        have free : ¬ ∃ c ∈ name.toList, Text.isBlank c = true ∨ c = '(' ∨ c = ')' ∨ c = ',' ∨
            registry.isOperator c = true := by
          rintro ⟨c, member, barred⟩
          exact List.find?_eq_none.1 found c member (isBarred_iff.2 barred)
        by_cases numeric : name.toList.all isNumberChar = true
        · have digits : ∀ c ∈ name.toList, Text.isDigit c = true ∨ c = '.' := by
            intro c member
            exact isNumberChar_iff.1 (List.all_eq_true.1 numeric c member)
          rw [if_pos numeric]
          constructor
          · intro accepted
            cases accepted
          · intro usable
            exact absurd (.inr (.inr digits)) usable
        · have other : ¬ ∀ c ∈ name.toList, Text.isDigit c = true ∨ c = '.' := by
            intro digits
            exact numeric (List.all_eq_true.2 fun c member => isNumberChar_iff.2 (digits c member))
          simp only [if_neg numeric, true_iff]
          rintro (none | barred | digits)
          · exact empty none
          · exact free barred
          · exact other digits

/-- A refused name is the name of the error. -/
theorem name_of_checkName {registry : Registry} {kind : NameKind} {name : String}
    {error : RegistryError} (refused : registry.checkName kind name = .error error) :
    error.name = name := by
  unfold checkName at refused
  split at refused
  next empty => cases refused; exact empty.symm
  next =>
    split at refused
    next => cases refused; rfl
    next =>
      split at refused
      next => cases refused; rfl
      next => cases refused

/-- A name is no more usable in a registry than where there are no operators. -/
theorem Unusable.of_empty {registry : Registry} {name : String} (unusable : empty.Unusable name) :
    registry.Unusable name := by
  rcases unusable with none | ⟨c, member, blank | opening | closing | comma | operator⟩ | digits
  · exact .inl none
  · exact .inr (.inl ⟨c, member, .inl blank⟩)
  · exact .inr (.inl ⟨c, member, .inr (.inl opening)⟩)
  · exact .inr (.inl ⟨c, member, .inr (.inr (.inl closing))⟩)
  · exact .inr (.inl ⟨c, member, .inr (.inr (.inr (.inl comma)))⟩)
  · cases operator
  · exact .inr (.inr digits)

theorem usable_of_empty {registry : Registry} {name : String} (usable : ¬ empty.Unusable name)
    (avoids : ∀ c ∈ name.toList, registry.isOperator c = false) : ¬ registry.Unusable name := by
  rintro (none | ⟨c, member, blank | opening | closing | comma | operator⟩ | digits)
  · exact usable (.inl none)
  · exact usable (.inr (.inl ⟨c, member, .inl blank⟩))
  · exact usable (.inr (.inl ⟨c, member, .inr (.inl opening)⟩))
  · exact usable (.inr (.inl ⟨c, member, .inr (.inr (.inl closing))⟩))
  · exact usable (.inr (.inl ⟨c, member, .inr (.inr (.inr (.inl comma)))⟩))
  · rw [avoids c member] at operator
    cases operator
  · exact usable (.inr (.inr digits))

/-- The character can only be an operator. -/
structure IsSymbol (c : Char) : Prop where
  notBlank : Text.isBlank c = false
  notReserved : isReserved c = false
  notNumber : isNumberChar c = false

theorem isSymbol_of_checkSymbol {symbol : String} {c : Char} (accepted : checkSymbol symbol = .ok c) :
    IsSymbol c := by
  unfold checkSymbol at accepted
  split at accepted
  next =>
    split at accepted
    next => cases accepted
    next free =>
      split at accepted
      next => cases accepted
      next notNumber =>
        cases accepted
        rw [Bool.or_eq_true, not_or] at free
        exact ⟨Bool.eq_false_iff.2 free.1, Bool.eq_false_iff.2 free.2, Bool.eq_false_iff.2 notNumber⟩
  next => cases accepted

/-- What every definition checks of its symbol or of its name. -/
structure Checked (registry : Registry) : Prop where
  operator : ∀ {c}, registry.isOperator c = true → IsSymbol c
  function : ∀ {name definition},
    registry.functions.find? name = some definition → ¬ empty.Unusable name
  binding : ∀ {name value}, registry.bindings.find? name = some value → ¬ empty.Unusable name

theorem Checked.setVariable {registry next : Registry} {name : String} {value : Float}
    (accepted : registry.setVariable name value = .ok next) (checked : registry.Checked) :
    next.Checked := by
  obtain ⟨passes, rfl⟩ := setVariable_eq_ok accepted
  refine ⟨checked.operator, checked.function, ?_⟩
  intro other _ found
  rw [Table.find?_insert] at found
  split at found
  next same =>
    rw [same]
    exact fun unusable => checkName_eq_ok_iff.1 passes (.of_empty unusable)
  next => exact checked.binding found

theorem Built.checked {registry : Registry} (built : Built registry) : registry.Checked := by
  induction built with
  | empty =>
      refine ⟨?_, ?_, ?_⟩
      · intro c known
        cases known
      · intro name definition found
        cases found
      · intro name value found
        cases found
  | operator _ accepted ih =>
      obtain ⟨c, isSymbol, _, _, rfl⟩ := registerOperator_eq_ok accepted
      refine ⟨?_, ih.function, ih.binding⟩
      intro other known
      rw [isOperator, Table.contains, Table.find?_insert] at known
      split at known
      next same =>
        rw [same]
        exact isSymbol_of_checkSymbol isSymbol
      next => exact ih.operator known
  | function _ accepted ih =>
      obtain ⟨passes, _, _, rfl⟩ := registerFunction_eq_ok accepted
      refine ⟨ih.operator, ?_, ih.binding⟩
      intro other _ found
      rw [Table.find?_insert] at found
      split at found
      next same =>
        rw [same]
        exact fun unusable => checkName_eq_ok_iff.1 passes (.of_empty unusable)
      next => exact ih.function found
  | value _ accepted ih => exact ih.setVariable (defineVariable_eq_ok accepted).2
  | layer _ accepted ih => exact of_withVariables Checked.setVariable accepted ih

/-- No function and no variable has an operator symbol in its name. -/
def NamesAvoidSymbols (registry : Registry) : Prop :=
  ∀ name, registry.functions.contains name = true ∨ registry.bindings.contains name = true →
    ∀ c ∈ name.toList, registry.isOperator c = false

/-- Symbols and names can be told apart in every expression. -/
structure Legible (registry : Registry) : Prop where
  operator : ∀ {c}, registry.isOperator c = true → IsSymbol c
  function : ∀ {name definition},
    registry.functions.find? name = some definition → ¬ registry.Unusable name
  binding : ∀ {name value}, registry.bindings.find? name = some value → ¬ registry.Unusable name

theorem Built.legible {registry : Registry} (built : Built registry)
    (avoids : registry.NamesAvoidSymbols) : registry.Legible := by
  refine ⟨built.checked.operator, ?_, ?_⟩
  · intro name definition found
    refine usable_of_empty (built.checked.function found) (avoids name (.inl ?_))
    rw [Table.contains, found]
    rfl
  · intro name value found
    refine usable_of_empty (built.checked.binding found) (avoids name (.inr ?_))
    rw [Table.contains, found]
    rfl

/-- The characters of a usable name, one by one. -/
theorem not_reserved_of_usable {registry : Registry} {name : String}
    (usable : ¬ registry.Unusable name) {c : Char} (member : c ∈ name.toList) :
    isReserved c = false ∧ registry.isOperator c = false := by
  constructor
  · rw [Bool.eq_false_iff]
    intro reserved
    simp only [isReserved, Bool.or_eq_true, decide_eq_true_eq] at reserved
    rcases reserved with (opening | closing) | comma
    · exact usable (.inr (.inl ⟨c, member, .inr (.inl opening)⟩))
    · exact usable (.inr (.inl ⟨c, member, .inr (.inr (.inl closing))⟩))
    · exact usable (.inr (.inl ⟨c, member, .inr (.inr (.inr (.inl comma)))⟩))
  · rw [Bool.eq_false_iff]
    intro operator
    exact usable (.inr (.inl ⟨c, member, .inr (.inr (.inr (.inr operator)))⟩))

theorem ne_empty_of_usable {registry : Registry} {name : String}
    (usable : ¬ registry.Unusable name) : name.toList ≠ [] := by
  intro nothing
  exact usable (.inl (String.toList_eq_nil_iff.1 nothing))

end Calculator.Registry
