import Calculator.Catalog
import Calculator.Proofs.Layers
import Calculator.Proofs.Phrase

/-!
# The catalog as a registry

The catalog can be reached by definitions. Its operators bind like operators,
and no name of it contains a symbol, so its expressions are legible.
-/

namespace Calculator.Catalog

variable (elementary : Elementary)

theorem mem_operators_of_find? {symbol : Char} {definition : Operator}
    (found : (registryOver elementary).operators.find? symbol = some definition) :
    definition ∈ operators elementary := by
  obtain ⟨member, inList, same⟩ := List.mem_map.1 (Table.mem_of_find?_ofList found)
  cases same
  exact inList

theorem mem_functions_of_find? {name : String} {definition : Function}
    (found : (registryOver elementary).functions.find? name = some definition) :
    definition ∈ functions elementary ∧ definition.name = name := by
  obtain ⟨member, inList, same⟩ := List.mem_map.1 (Table.mem_of_find?_ofList found)
  cases same
  exact ⟨inList, rfl⟩

/-- What the operators have in common with the symbols and ranks of their definitions. -/
theorem operators_checked {definition : Operator} (member : definition ∈ operators elementary) :
    Registry.IsSymbol definition.symbol ∧ definition.precedence ≠ .openBracket := by
  have all : (operators elementary).all (fun definition =>
      !Text.isBlank definition.symbol && !isReserved definition.symbol &&
        !isNumberChar definition.symbol && definition.precedence ≠ .openBracket) = true := rfl
  have checked := List.all_eq_true.1 all definition member
  simp only [Bool.and_eq_true, Bool.not_eq_true', decide_eq_true_eq] at checked
  exact ⟨⟨checked.1.1.1, checked.1.1.2, checked.1.2⟩, checked.2⟩

def symbols : List Char := ['+', '-', '*', '/', '^']

theorem isOperator_iff {c : Char} : (registryOver elementary).isOperator c = true ↔ c ∈ symbols := by
  have contained := Table.contains_insertAll .empty
    ((operators elementary).map fun operator => (operator.symbol, operator)) c
  have none : ¬ (Table.empty : Table Char Operator).contains c = true := Bool.false_ne_true
  rw [or_iff_right none] at contained
  exact contained

def names : List String :=
  ["sin", "cos", "tan", "atan", "abs", "min", "max", "sqrt", "log", "ln", "log10", "sign", "ceil",
    "floor", "PI", "E"]

/-- No name of the catalog is empty, a number, or has a character that no name may have. -/
theorem usable_of_mem_names {name : String} (listed : name ∈ names) :
    ¬ (registryOver elementary).Unusable name := by
  have plain : names.all (fun name =>
      name != "" && name.toList.all (fun c => !(Text.isBlank c || isReserved c || symbols.elem c)) &&
        name.toList.any fun c => !isNumberChar c) = true := by
    decide +kernel
  have checked := List.all_eq_true.1 plain name listed
  simp only [Bool.and_eq_true, bne_iff_ne, List.all_eq_true, List.any_eq_true, Bool.not_eq_true',
    Bool.or_eq_false_iff] at checked
  obtain ⟨⟨nonempty, free⟩, c, member, notNumber⟩ := checked
  rintro (none | ⟨other, inName, barred⟩ | digits)
  · exact nonempty none
  · obtain ⟨⟨notBlank, notReserved⟩, notSymbol⟩ := free other inName
    rw [isOperator_iff] at barred
    rcases barred with blank | rfl | rfl | rfl | symbol
    · rw [notBlank] at blank
      cases blank
    · cases notReserved
    · cases notReserved
    · cases notReserved
    · rw [List.elem_eq_true_of_mem symbol] at notSymbol
      cases notSymbol
  · rw [Registry.isNumberChar_iff.2 (digits c member)] at notNumber
    cases notNumber

theorem functions_checked {definition : Function} (member : definition ∈ functions elementary) :
    ¬ (registryOver elementary).Unusable definition.name ∧ 0 < definition.arity := by
  have arities : (functions elementary).all (fun definition =>
      decide (0 < definition.arity)) = true := rfl
  have listed : definition.name ∈ names :=
    List.mem_append_left ["PI", "E"] (List.mem_map_of_mem (f := Function.name) member)
  exact ⟨usable_of_mem_names elementary listed,
    of_decide_eq_true (List.all_eq_true.1 arities definition member)⟩

theorem constants_usable {entry : String × Float} (member : entry ∈ constants) :
    ¬ (registryOver elementary).Unusable entry.1 :=
  usable_of_mem_names elementary (List.mem_append_right
    ((functions elementary).map Function.name) (List.mem_map_of_mem (f := Prod.fst) member))

/-- The operators of the catalog, with no names yet. -/
def operatorsOnly : Registry :=
  { Registry.empty with
    operators := .ofList ((operators elementary).map fun operator => (operator.symbol, operator)) }

theorem built_operatorsOnly : Registry.Built (operatorsOnly elementary) := by
  have distinct : ((operators elementary).map Operator.symbol).Nodup := by
    change symbols.Nodup
    decide
  exact Registry.Built.empty.insertOperators
    (fun definition member => (operators_checked elementary member).1) (fun _ _ => rfl) distinct

/-- The catalog is reached by registering its operators, its functions and its constants. -/
theorem built : Registry.Built (registryOver elementary) := by
  have same : (operatorsOnly elementary).operators = (registryOver elementary).operators := rfl
  have distinct : ((functions elementary).map Function.name).Nodup := by
    change ["sin", "cos", "tan", "atan", "abs", "min", "max", "sqrt", "log", "ln", "log10", "sign",
      "ceil", "floor"].Nodup
    decide
  have usable : ∀ definition ∈ functions elementary,
      ¬ (operatorsOnly elementary).Unusable definition.name := by
    intro definition member
    rw [Registry.unusable_congr same]
    exact (functions_checked elementary member).1
  have takes : ∀ definition ∈ functions elementary, 0 < definition.arity :=
    fun definition member => (functions_checked elementary member).2
  have new : ∀ definition ∈ functions elementary,
      (operatorsOnly elementary).functions.contains definition.name = false :=
    fun _ _ => rfl
  have named := (built_operatorsOnly elementary).insertFunctions usable takes new distinct
  have layered := named.insertBindings (.ofList constants) (by
    intro entry member unusable
    have usable : ¬ (registryOver elementary).Unusable entry.1 := by
      rcases Table.mem_insertAll member with none | listed
      · cases none
      · exact constants_usable elementary listed
    apply usable
    refine (Registry.unusable_congr ?_ entry.1).1 unusable
    exact same)
  rw [Table.overlay_ofList] at layered
  exact layered

theorem ranked : (registryOver elementary).Ranked := by
  intro symbol definition found
  exact (operators_checked elementary (mem_operators_of_find? elementary found)).2

theorem namesAvoidSymbols : (registryOver elementary).NamesAvoidSymbols := by
  intro name known c member
  have usable : ¬ (registryOver elementary).Unusable name := by
    rcases known with function | binding
    · obtain ⟨definition, found⟩ := Option.isSome_iff_exists.1 function
      obtain ⟨listed, rfl⟩ := mem_functions_of_find? elementary found
      exact (functions_checked elementary listed).1
    · obtain ⟨value, found⟩ := Option.isSome_iff_exists.1 binding
      exact constants_usable elementary (Table.mem_of_find?_ofList found)
  exact (Registry.not_reserved_of_usable usable member).2

end Calculator.Catalog
