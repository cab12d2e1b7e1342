import Calculator.Proofs.Names

/-!
# Layers of definitions

Variables are layered over a registry as a whole or not at all: when all names
are usable their values are inserted in order, and otherwise the first name
that is not usable is reported. Operators and functions with free symbols and
usable names can be added to a built registry in the same way.
-/

namespace Calculator.Registry

theorem setVariable_of_usable {registry : Registry} {name : String}
    (usable : ¬ registry.Unusable name) (value : Float) :
    registry.setVariable name value =
      .ok { registry with bindings := registry.bindings.insert name value } := by
  rw [setVariable, checkName_eq_ok_iff.2 usable]
  rfl

theorem setVariable_of_unusable {registry : Registry} {name : String}
    (unusable : registry.Unusable name) (value : Float) :
    ∃ error, registry.setVariable name value = .error error ∧ error.name = name := by
  cases checked : registry.checkName .variable name with
  | ok _ => exact absurd unusable (checkName_eq_ok_iff.1 checked)
  | error error =>
      refine ⟨error, ?_, name_of_checkName checked⟩
      rw [setVariable, checked]
      rfl

/-- Sets variables one after another. -/
def setAll (registry : Registry) (entries : List (String × Float)) :
    Except RegistryError Registry :=
  entries.foldlM (fun derived entry => derived.setVariable entry.1 entry.2) registry

theorem setAll_of_usable {registry : Registry} {entries : List (String × Float)}
    (usable : ∀ entry ∈ entries, ¬ registry.Unusable entry.1) :
    registry.setAll entries =
      .ok { registry with bindings := registry.bindings.insertAll entries } := by
  induction entries generalizing registry with
  | nil => rfl
  | cons entry rest ih =>
      have first := setVariable_of_usable (usable entry (List.mem_cons_self ..)) entry.2
      have usableRest : ∀ other ∈ rest, ¬ Unusable { registry with
          bindings := registry.bindings.insert entry.1 entry.2 } other.1 := by
        intro other member
        rw [unusable_congr rfl other.1]
        exact usable other (List.mem_cons_of_mem _ member)
      rw [setAll, List.foldlM_cons, first]
      exact ih usableRest

/-- The first name that is not usable is the one that is reported. -/
theorem setAll_of_unusable {registry : Registry} {before after : List (String × Float)}
    {name : String} {value : Float} (usable : ∀ entry ∈ before, ¬ registry.Unusable entry.1)
    (unusable : registry.Unusable name) :
    ∃ error, registry.setAll (before ++ (name, value) :: after) = .error error ∧
      error.name = name := by
  have still : Unusable { registry with bindings := registry.bindings.insertAll before } name :=
    (unusable_congr rfl name).2 unusable
  obtain ⟨error, refused, same⟩ := setVariable_of_unusable still value
  refine ⟨error, ?_, same⟩
  have passed := setAll_of_usable usable
  rw [setAll] at passed ⊢
  rw [List.foldlM_append, passed]
  change (List.foldlM _ _ _ : Except RegistryError Registry) = _
  rw [List.foldlM_cons, refused]
  rfl

theorem withVariables_of_usable {registry : Registry} {values : Table String Float}
    (usable : ∀ entry ∈ values.entries, ¬ registry.Unusable entry.1) :
    registry.withVariables values =
      .ok { registry with bindings := registry.bindings.overlay values } :=
  setAll_of_usable usable

theorem withVariables_of_unusable {registry : Registry} {values : Table String Float}
    {before after : List (String × Float)} {name : String} {value : Float}
    (split : values.entries = before ++ (name, value) :: after)
    (usable : ∀ entry ∈ before, ¬ registry.Unusable entry.1) (unusable : registry.Unusable name) :
    ∃ error, registry.withVariables values = .error error ∧ error.name = name := by
  obtain ⟨error, refused, same⟩ := setAll_of_unusable usable unusable
  rw [← split] at refused
  exact ⟨error, refused, same⟩

/-- Either all names of a table are usable or there is a first one that is not. -/
theorem usable_or_first_unusable (registry : Registry) (entries : List (String × Float)) :
    (∀ entry ∈ entries, ¬ registry.Unusable entry.1) ∨
      ∃ before name value after, entries = before ++ (name, value) :: after ∧
        (∀ entry ∈ before, ¬ registry.Unusable entry.1) ∧ registry.Unusable name := by
  induction entries with
  | nil => exact .inl (by simp)
  | cons entry rest ih =>
      by_cases unusable : registry.Unusable entry.1
      · exact .inr ⟨[], entry.1, entry.2, rest, rfl, by simp, unusable⟩
      · rcases ih with usable | ⟨before, name, value, after, rfl, usable, first⟩
        · left
          intro other member
          rcases List.mem_cons.1 member with rfl | later
          · exact unusable
          · exact usable other later
        · refine .inr ⟨entry :: before, name, value, after, rfl, ?_, first⟩
          intro other member
          rcases List.mem_cons.1 member with rfl | later
          · exact unusable
          · exact usable other later

/-! ## Batches of definitions -/

namespace Built

theorem insertOperator {registry : Registry} (built : Built registry) {definition : Operator}
    (isSymbol : IsSymbol definition.symbol)
    (new : registry.operators.contains definition.symbol = false) :
    Built { registry with
      operators := registry.operators.insert definition.symbol definition } := by
  obtain ⟨symbol, precedence, rule, usage⟩ := definition
  have checked : checkSymbol (String.ofList [symbol]) = .ok symbol := by
    simp [checkSymbol, isSymbol.notBlank, isSymbol.notReserved, isSymbol.notNumber]
  refine @Built.operator _ _ (String.ofList [symbol]) precedence 2 rule usage built ?_
  have free : registry.operators.contains symbol = false := new
  rw [registerOperator, checked]
  simp [free, bind, Except.bind, pure, Except.pure]

theorem insertFunction {registry : Registry} (built : Built registry) {definition : Function}
    (usable : ¬ registry.Unusable definition.name) (takes : 0 < definition.arity)
    (new : registry.functions.contains definition.name = false) :
    Built { registry with
      functions := registry.functions.insert definition.name definition } := by
  obtain ⟨name, arity, rule, usage⟩ := definition
  refine @Built.function _ _ name arity rule usage built ?_
  have some : ¬ (arity : Int) < 1 := by
    have takes : 0 < arity := takes
    omega
  simp [registerFunction, checkName_eq_ok_iff.2 usable, some, new, bind, Except.bind, pure,
    Except.pure]

theorem insertOperators {registry : Registry} (built : Built registry)
    {definitions : List Operator} (isSymbol : ∀ definition ∈ definitions, IsSymbol definition.symbol)
    (new : ∀ definition ∈ definitions, registry.operators.contains definition.symbol = false)
    (distinct : (definitions.map Operator.symbol).Nodup) :
    Built { registry with
      operators := registry.operators.insertAll
        (definitions.map fun definition => (definition.symbol, definition)) } := by
  induction definitions generalizing registry with
  | nil => exact built
  | cons first rest ih =>
      rw [List.map_cons, List.nodup_cons] at distinct
      have inserted := built.insertOperator (isSymbol first (List.mem_cons_self ..))
        (new first (List.mem_cons_self ..))
      refine ih inserted (fun other member => isSymbol other (List.mem_cons_of_mem _ member)) ?_
        distinct.2
      intro other member
      have unequal : other.symbol ≠ first.symbol := by
        intro same
        exact distinct.1 (List.mem_map.2 ⟨other, member, same⟩)
      rw [Bool.eq_false_iff, ne_eq, Table.contains_insert, not_or]
      exact ⟨unequal, Bool.eq_false_iff.1 (new other (List.mem_cons_of_mem _ member))⟩

theorem insertFunctions {registry : Registry} (built : Built registry)
    {definitions : List Function}
    (usable : ∀ definition ∈ definitions, ¬ registry.Unusable definition.name)
    (takes : ∀ definition ∈ definitions, 0 < definition.arity)
    (new : ∀ definition ∈ definitions, registry.functions.contains definition.name = false)
    (distinct : (definitions.map Function.name).Nodup) :
    Built { registry with
      functions := registry.functions.insertAll
        (definitions.map fun definition => (definition.name, definition)) } := by
  induction definitions generalizing registry with
  | nil => exact built
  | cons first rest ih =>
      rw [List.map_cons, List.nodup_cons] at distinct
      have inserted := built.insertFunction (usable first (List.mem_cons_self ..))
        (takes first (List.mem_cons_self ..)) (new first (List.mem_cons_self ..))
      refine ih inserted (fun other member => usable other (List.mem_cons_of_mem _ member))
        (fun other member => takes other (List.mem_cons_of_mem _ member)) ?_ distinct.2
      intro other member
      have unequal : other.name ≠ first.name := by
        intro same
        exact distinct.1 (List.mem_map.2 ⟨other, member, same⟩)
      rw [Bool.eq_false_iff, ne_eq, Table.contains_insert, not_or]
      exact ⟨unequal, Bool.eq_false_iff.1 (new other (List.mem_cons_of_mem _ member))⟩

theorem insertBindings {registry : Registry} (built : Built registry) (values : Table String Float)
    (usable : ∀ entry ∈ values.entries, ¬ registry.Unusable entry.1) :
    Built { registry with bindings := registry.bindings.overlay values } :=
  built.layer (withVariables_of_usable usable)

end Built

end Calculator.Registry
