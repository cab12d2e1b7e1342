import Calculator.Proofs.Service

/-!
# Layers over layers

A layer of variables first has all its names judged, which depends on the
operators alone, and then its values are put over those that are there. So
two layers come to the same as one layer that is composed of both, also in the
name that is refused. New variables may as well be defined one by one.
-/

namespace Calculator

namespace Table

variable {κ α : Type} [DecidableEq κ]

theorem keys_place (key : κ) (value : α) (entries : List (κ × α)) :
    (place key value entries).map Prod.fst =
      if key ∈ entries.map Prod.fst then entries.map Prod.fst
      else entries.map Prod.fst ++ [key] := by
  induction entries with
  | nil => rfl
  | cons entry rest ih =>
      by_cases same : entry.1 = key
      · simp [place, same]
      · rw [place, if_neg same, List.map_cons, ih]
        by_cases known : key ∈ rest.map Prod.fst
        · simp [known]
        · simp [known, Ne.symm same]

/-- A table over which two others are laid, one after the other or as one. -/
theorem overlay_overlay (table lower upper : Table κ α) :
    (table.overlay lower).overlay upper = table.overlay (lower.overlay upper) :=
  (overlay_insertAll table lower upper.entries).symm

end Table

namespace Registry

open Decimal (Quantity)

/-- Judges names one after another. -/
def checkNames (registry : Registry) (names : List String) : Except RegistryError Unit :=
  forM names (registry.checkName .variable)

theorem checkNames_append (registry : Registry) (first second : List String) :
    registry.checkNames (first ++ second) =
      (registry.checkNames first >>= fun _ => registry.checkNames second) :=
  List.forM_append

theorem checkNames_cons (registry : Registry) (name : String) (rest : List String) :
    registry.checkNames (name :: rest) =
      (registry.checkName .variable name >>= fun _ => registry.checkNames rest) :=
  List.forM_cons

theorem checkName_of_checkNames {registry : Registry} {names : List String} {name : String}
    (passed : registry.checkNames names = .ok ()) (member : name ∈ names) :
    registry.checkName .variable name = .ok () := by
  induction names with
  | nil => cases member
  | cons first rest ih =>
      rw [checkNames_cons] at passed
      obtain ⟨_, here, later⟩ := bind_eq_ok passed
      rcases List.mem_cons.1 member with rfl | inRest
      · exact here
      · exact ih later inRest

/-- A name that has passed may be judged once more. -/
theorem checkNames_concat_of_mem {registry : Registry} {names : List String} {name : String}
    (member : name ∈ names) : registry.checkNames (names ++ [name]) = registry.checkNames names := by
  rw [checkNames_append, checkNames_cons]
  cases passed : registry.checkNames names with
  | error error => rfl
  | ok _ =>
      change (registry.checkName .variable name >>= fun _ => .ok ()) = .ok ()
      rw [checkName_of_checkNames passed member]
      rfl

/-- The names of two layers pass as those of the layer that is composed of both. -/
theorem checkNames_placeAll (registry : Registry) (base upper : List (String × Float)) :
    registry.checkNames ((Table.placeAll base upper).map Prod.fst) =
      registry.checkNames (base.map Prod.fst ++ upper.map Prod.fst) := by
  induction upper generalizing base with
  | nil => rw [List.map_nil, List.append_nil]; rfl
  | cons entry rest ih =>
      have step : Table.placeAll base (entry :: rest) =
          Table.placeAll (Table.place entry.1 entry.2 base) rest := rfl
      have placed : registry.checkNames ((Table.place entry.1 entry.2 base).map Prod.fst) =
          registry.checkNames (base.map Prod.fst ++ [entry.1]) := by
        rw [Table.keys_place]
        split
        next known => exact (checkNames_concat_of_mem known).symm
        next => rfl
      rw [step, ih, checkNames_append, placed, ← checkNames_append, List.append_assoc]
      rfl

/-- A layer is put in place as a whole after all its names have passed. -/
theorem setAll_eq (registry : Registry) (entries : List (String × Float)) :
    registry.setAll entries = (registry.checkNames (entries.map Prod.fst)).map fun _ =>
      { registry with bindings := registry.bindings.insertAll entries } := by
  induction entries generalizing registry with
  | nil => rfl
  | cons entry rest ih =>
      rw [setAll, List.foldlM_cons, List.map_cons, checkNames_cons, setVariable]
      cases registry.checkName .variable entry.1 with
      | error error => rfl
      | ok _ => exact ih { registry with bindings := registry.bindings.insert entry.1 entry.2 }

theorem withVariables_eq (registry : Registry) (values : Table String Float) :
    registry.withVariables values = (registry.checkNames values.keys).map fun _ =>
      { registry with bindings := registry.bindings.overlay values } :=
  setAll_eq registry values.entries

theorem withVariables_withVariables (registry : Registry) (lower upper : Table String Float) :
    (registry.withVariables lower >>= fun layered => layered.withVariables upper) =
      registry.withVariables (lower.overlay upper) := by
  have names : registry.checkNames (lower.overlay upper).keys =
      (registry.checkNames lower.keys >>= fun _ => registry.checkNames upper.keys) := by
    rw [Table.keys, Table.overlay, Table.entries_insertAll, checkNames_placeAll, checkNames_append]
    rfl
  have judged (layered : Registry) (same : layered.operators = registry.operators) :
      layered.checkNames upper.keys = registry.checkNames upper.keys := by
    unfold checkNames
    congr 1
    funext name
    unfold checkName isBarred isOperator
    rw [same]
  rw [withVariables_eq, withVariables_eq, names, ← Table.overlay_overlay]
  cases registry.checkNames lower.keys with
  | error error => rfl
  | ok _ =>
      change withVariables _ upper = _
      rw [withVariables_eq, judged _ rfl]
      rfl

/-! ## New variables -/

theorem defineVariable_of_new {registry : Registry} {name : String}
    (new : registry.bindings.contains name = false) :
    registry.defineVariable name = registry.setVariable name := by
  funext value
  rw [defineVariable, setVariable, new]
  cases registry.checkName .variable name with
  | error error => rfl
  | ok _ => rfl

/-- A number that was supplied for a variable is its value, and all else stays. -/
theorem supply_setVariable_eq_ok {registry next : Registry} {name : String} {number : Quantity}
    (supplied : supply (registry.setVariable name) number = .ok next) :
    ∃ value, next = { registry with bindings := registry.bindings.insert name value } := by
  unfold supply at supplied
  split at supplied
  next value _ =>
    cases done : registry.setVariable name value with
    | error error =>
        rw [done] at supplied
        cases supplied
    | ok derived =>
        rw [done] at supplied
        cases supplied
        exact ⟨value, (setVariable_eq_ok done).2⟩
  next =>
    split at supplied
    next => cases supplied
    next => cases supplied

/-- Variables that are all new may be defined one by one or layered. -/
theorem defineAll_of_new {registry : Registry} {numbers : Table String Quantity}
    (new : ∀ name ∈ numbers.keys, registry.bindings.contains name = false) :
    registry.defineAll numbers = registry.withNumbers numbers := by
  obtain ⟨entries, distinct⟩ := numbers
  change ∀ name ∈ entries.map Prod.fst, registry.bindings.contains name = false at new
  rw [defineAll, withNumbers]
  dsimp only
  induction entries generalizing registry with
  | nil => rfl
  | cons entry rest ih =>
      rw [List.map_cons, List.nodup_cons] at distinct
      rw [List.foldlM_cons, List.foldlM_cons, supplyVariable,
        defineVariable_of_new (new entry.1 (by simp))]
      cases supplied : supply (registry.setVariable entry.1) entry.2 with
      | error error => rfl
      | ok derived =>
          obtain ⟨value, rfl⟩ := supply_setVariable_eq_ok supplied
          refine ih distinct.2 ?_
          intro name member
          have unequal : name ≠ entry.1 := fun same => distinct.1 (same ▸ member)
          rw [Bool.eq_false_iff, ne_eq, Table.contains_insert, not_or]
          exact ⟨unequal, Bool.eq_false_iff.1 (new name (List.mem_cons_of_mem _ member))⟩

/--
Two layers of variables come to the same as the one layer that is composed of both, whatever the
registry: the same registry, or the same name refused. And the catalog may be given further
variables when it is made or as a layer, unless they redefine its constants.
-/
theorem layers_compose (registry : Registry) (lower upper : Table String Float) :
    (registry.withVariables lower >>= fun layered => layered.withVariables upper) =
        registry.withVariables (lower.overlay upper) ∧
      ∀ extra : Table String Float, "PI" ∉ extra.keys → "E" ∉ extra.keys →
        Catalog.registryWith (extra.mapValues .double) =
          (Catalog.registry.withVariables extra).mapError .registry := by
  refine ⟨withVariables_withVariables registry lower upper, ?_⟩
  intro extra noPi noE
  have keys : (extra.mapValues Quantity.double).keys = extra.keys := by
    simp [Table.keys, Table.mapValues, Function.comp_def]
  rw [Catalog.registryWith, ← withNumbers_double]
  refine defineAll_of_new ?_
  rw [keys]
  intro name member
  rw [Bool.eq_false_iff]
  intro known
  have constant := (Table.contains_insertAll .empty Catalog.constants name).1 known
  rcases constant with none | listed
  · cases none
  · simp only [Catalog.constants, List.map_cons, List.map_nil, List.mem_cons, List.not_mem_nil,
      or_false] at listed
    rcases listed with rfl | rfl
    · exact noPi member
    · exact noE member

/-- A layer that changes a constant and adds a variable, and one that changes that variable. -/
theorem layers_compose_catalog :
    (∃ layered, (Catalog.registry.withVariables (.ofList [("x", 1.5), ("PI", 3.0)]) >>=
        fun layered => layered.withVariables (.ofList [("y", 2.5), ("x", 0.5)])) = .ok layered ∧
      layered.bindings.entries = [("PI", 3.0), ("E", Catalog.e), ("x", 0.5), ("y", 2.5)]) ∧
      ∃ error, Catalog.registryWith (.mapValues (.ofList [("g", 9.5), ("1.5", 2.5)]) .double) =
        .error (.registry error) ∧ error.name = "1.5" := by
  obtain ⟨composed, layered⟩ := layers_compose Catalog.registry (.ofList [("x", 1.5), ("PI", 3.0)])
    (.ofList [("y", 2.5), ("x", 0.5)])
  refine ⟨⟨_, composed.trans rfl, rfl⟩, .numericName .variable "1.5", ?_, rfl⟩
  exact layered (.ofList [("g", 9.5), ("1.5", 2.5)]) (by decide) (by decide)

end Registry

end Calculator
