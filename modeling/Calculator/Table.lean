/-!
# Tables in order of insertion

A table maps distinct keys to values and keeps the keys in the order of their
first insertion. A later value of a known key takes the place of the earlier
one.
-/

namespace Calculator

structure Table (κ : Type) (α : Type) where
  entries : List (κ × α)
  distinct : (entries.map Prod.fst).Nodup := by exact List.nodup_nil

namespace Table

variable {κ α : Type}

theorem ext_entries {first second : Table κ α} (same : first.entries = second.entries) :
    first = second := by
  cases first; cases second; cases same; rfl

def empty : Table κ α := { entries := [] }

def keys (table : Table κ α) : List κ :=
  table.entries.map Prod.fst

variable [DecidableEq κ]

/-- Puts a value in place of the one under the same key, or at the end. -/
def place (key : κ) (value : α) : List (κ × α) → List (κ × α)
  | [] => [(key, value)]
  | entry :: rest =>
      if entry.1 = key then (key, value) :: rest else entry :: place key value rest

theorem mem_keys_place (key other : κ) (value : α) (entries : List (κ × α)) :
    other ∈ (place key value entries).map Prod.fst ↔
      other = key ∨ other ∈ entries.map Prod.fst := by
  induction entries with
  | nil => simp [place]
  | cons entry rest ih =>
      by_cases same : entry.1 = key
      · simp [place, same]
      · simp only [place, if_neg same, List.map_cons, List.mem_cons, ih]
        constructor
        · rintro (here | new | old)
          · exact .inr (.inl here)
          · exact .inl new
          · exact .inr (.inr old)
        · rintro (new | here | old)
          · exact .inr (.inl new)
          · exact .inl here
          · exact .inr (.inr old)

theorem place_distinct (key : κ) (value : α) {entries : List (κ × α)}
    (distinct : (entries.map Prod.fst).Nodup) :
    ((place key value entries).map Prod.fst).Nodup := by
  induction entries with
  | nil => simp [place]
  | cons entry rest ih =>
      rw [List.map_cons, List.nodup_cons] at distinct
      by_cases same : entry.1 = key
      · simp only [place, if_pos same, List.map_cons, List.nodup_cons]
        exact ⟨same ▸ distinct.1, distinct.2⟩
      · simp only [place, if_neg same, List.map_cons, List.nodup_cons, mem_keys_place]
        exact ⟨fun member => member.elim same distinct.1, ih distinct.2⟩

def insert (table : Table κ α) (key : κ) (value : α) : Table κ α :=
  ⟨place key value table.entries, place_distinct key value table.distinct⟩

def find? (table : Table κ α) (key : κ) : Option α :=
  table.entries.lookup key

def contains (table : Table κ α) (key : κ) : Bool :=
  (table.find? key).isSome

/-- Inserts the entries one by one. -/
def insertAll (table : Table κ α) (entries : List (κ × α)) : Table κ α :=
  entries.foldl (fun table entry => table.insert entry.1 entry.2) table

/-- The table of a list of entries; the last value of a repeated key counts. -/
def ofList (entries : List (κ × α)) : Table κ α :=
  empty.insertAll entries

/-- The first table with the entries of the second put over it. -/
def overlay (table upper : Table κ α) : Table κ α :=
  table.insertAll upper.entries

def mapValues {β : Type} (table : Table κ α) (f : α → β) : Table κ β :=
  ⟨table.entries.map fun entry => (entry.1, f entry.2), by
    simpa [List.map_map, Function.comp_def] using table.distinct⟩

theorem lookup_place (key other : κ) (value : α) (entries : List (κ × α)) :
    (place key value entries).lookup other =
      if other = key then some value else entries.lookup other := by
  induction entries with
  | nil =>
      by_cases asked : other = key
      · simp [place, asked]
      · have unequal : (other == key) = false := by simpa using asked
        simp [place, List.lookup_cons, asked, unequal]
  | cons entry rest ih =>
      obtain ⟨name, old⟩ := entry
      by_cases same : name = key
      · subst same
        by_cases asked : other = name
        · simp [place, asked]
        · have unequal : (other == name) = false := by simpa using asked
          simp [place, List.lookup_cons, asked, unequal]
      · by_cases asked : other = name
        · subst asked
          simp [place, same]
        · have unequal : (other == name) = false := by simpa using asked
          simp [place, same, List.lookup_cons, unequal, ih]

theorem find?_insert (table : Table κ α) (key other : κ) (value : α) :
    (table.insert key value).find? other = if other = key then some value else table.find? other :=
  lookup_place key other value table.entries

@[simp] theorem find?_empty (key : κ) : (empty : Table κ α).find? key = none := rfl

/-! ## Entries -/

theorem mem_place {key : κ} {value : α} {entries : List (κ × α)} {entry : κ × α}
    (member : entry ∈ place key value entries) : entry = (key, value) ∨ entry ∈ entries := by
  induction entries with
  | nil => exact .inl (List.mem_singleton.1 member)
  | cons first rest ih =>
      by_cases same : first.1 = key
      · rw [place, if_pos same] at member
        rcases List.mem_cons.1 member with new | old
        · exact .inl new
        · exact .inr (List.mem_cons_of_mem _ old)
      · rw [place, if_neg same] at member
        rcases List.mem_cons.1 member with rfl | later
        · exact .inr (List.mem_cons_self ..)
        · rcases ih later with new | old
          · exact .inl new
          · exact .inr (List.mem_cons_of_mem _ old)

theorem mem_of_find? {table : Table κ α} {key : κ} {value : α}
    (found : table.find? key = some value) : (key, value) ∈ table.entries := by
  obtain ⟨before, after, split, _⟩ := List.lookup_eq_some_iff.1 found
  rw [split]
  exact List.mem_append_right _ (List.mem_cons_self ..)

theorem mem_insertAll {table : Table κ α} {entries : List (κ × α)} {entry : κ × α}
    (member : entry ∈ (table.insertAll entries).entries) :
    entry ∈ table.entries ∨ entry ∈ entries := by
  induction entries generalizing table with
  | nil => exact .inl member
  | cons first rest ih =>
      have inserted : entry ∈ ((table.insert first.1 first.2).insertAll rest).entries := member
      rcases ih inserted with old | later
      · rcases mem_place old with rfl | before
        · exact .inr (List.mem_cons_self ..)
        · exact .inl before
      · exact .inr (List.mem_cons_of_mem _ later)

theorem contains_insert (table : Table κ α) (key other : κ) (value : α) :
    (table.insert key value).contains other = true ↔ other = key ∨ table.contains other = true := by
  rw [contains, find?_insert]
  by_cases same : other = key
  · simp [same]
  · rw [if_neg same]
    simp [same, contains]

theorem contains_insertAll (table : Table κ α) (entries : List (κ × α)) (key : κ) :
    (table.insertAll entries).contains key = true ↔
      table.contains key = true ∨ key ∈ entries.map Prod.fst := by
  induction entries generalizing table with
  | nil => simp [insertAll]
  | cons entry rest ih =>
      have later := ih (table.insert entry.1 entry.2)
      rw [contains_insert] at later
      rw [List.map_cons, List.mem_cons]
      constructor
      · intro known
        rcases later.1 known with (here | old) | new
        · exact .inr (.inl here)
        · exact .inl old
        · exact .inr (.inr new)
      · rintro (old | here | new)
        · exact later.2 (.inl (.inr old))
        · exact later.2 (.inl (.inl here))
        · exact later.2 (.inr new)

theorem mem_of_find?_ofList {entries : List (κ × α)} {key : κ} {value : α}
    (found : (ofList entries).find? key = some value) : (key, value) ∈ entries := by
  rcases mem_insertAll (mem_of_find? found) with none | member
  · cases none
  · exact member

/-- A value keeps its place when another key is added. -/
theorem find?_insert_of_find? {table : Table κ α} {key name : κ} {value old : α}
    (new : table.contains key = false) (found : table.find? name = some old) :
    (table.insert key value).find? name = some old := by
  have unequal : name ≠ key := by
    rintro rfl
    rw [contains, found] at new
    cases new
  rw [find?_insert, if_neg unequal, found]

theorem place_place (key : κ) (old new : α) (entries : List (κ × α)) :
    place key new (place key old entries) = place key new entries := by
  induction entries with
  | nil => simp [place]
  | cons entry rest ih =>
      by_cases same : entry.1 = key
      · simp [place, same]
      · simp [place, same, ih]

/-- A known key keeps its position, whatever is put beside it. -/
theorem place_comm {key other : κ} (unequal : other ≠ key) (value otherValue : α)
    {entries : List (κ × α)} (known : key ∈ entries.map Prod.fst) :
    place key value (place other otherValue entries) =
      place other otherValue (place key value entries) := by
  induction entries with
  | nil => cases known
  | cons entry rest ih =>
      by_cases here : entry.1 = key
      · simp [place, here, Ne.symm unequal]
      · have later : key ∈ rest.map Prod.fst := by
          rcases List.mem_cons.1 known with same | later
          · exact absurd same.symm here
          · exact later
        by_cases same : entry.1 = other
        · simp [place, same, unequal]
        · simp [place, same, here, ih later]

/-- The entries after all are put in place, one by one. -/
def placeAll (base upper : List (κ × α)) : List (κ × α) :=
  upper.foldl (fun entries entry => place entry.1 entry.2 entries) base

theorem placeAll_comm {key : κ} (value : α) {base upper : List (κ × α)}
    (known : key ∈ base.map Prod.fst) (new : key ∉ upper.map Prod.fst) :
    place key value (placeAll base upper) = placeAll (place key value base) upper := by
  induction upper generalizing base with
  | nil => rfl
  | cons entry rest ih =>
      rw [List.map_cons, List.mem_cons, not_or] at new
      have stays : key ∈ (place entry.1 entry.2 base).map Prod.fst :=
        (mem_keys_place _ _ _ _).2 (.inr known)
      have later := ih stays new.2
      rw [place_comm (Ne.symm new.1) _ _ known] at later
      exact later

/-- Putting a value in place before or after comes to the same. -/
theorem placeAll_place {key : κ} (value : α) {base upper : List (κ × α)}
    (distinct : (upper.map Prod.fst).Nodup) :
    placeAll base (place key value upper) = place key value (placeAll base upper) := by
  induction upper generalizing base with
  | nil => rfl
  | cons entry rest ih =>
      rw [List.map_cons, List.nodup_cons] at distinct
      by_cases same : entry.1 = key
      · -- The new value replaces the old one on the spot, and nothing later has the key.
        have known : key ∈ (place entry.1 entry.2 base).map Prod.fst :=
          (mem_keys_place _ _ _ _).2 (.inl same.symm)
        have moved := placeAll_comm value known (same ▸ distinct.1)
        rw [same, place_place] at moved
        rw [place, if_pos same]
        change placeAll (place key value base) rest = place key value
          (placeAll (place entry.1 entry.2 base) rest)
        rw [same, moved]
      · rw [place, if_neg same]
        exact ih distinct.2

theorem entries_insertAll (table : Table κ α) (entries : List (κ × α)) :
    (table.insertAll entries).entries = placeAll table.entries entries := by
  induction entries generalizing table with
  | nil => rfl
  | cons entry rest ih => exact ih (table.insert entry.1 entry.2)

theorem overlay_insert (table upper : Table κ α) (key : κ) (value : α) :
    table.overlay (upper.insert key value) = (table.overlay upper).insert key value := by
  apply ext_entries
  have placed : placeAll table.entries (place key value upper.entries) =
      place key value (placeAll table.entries upper.entries) := placeAll_place value upper.distinct
  rw [← entries_insertAll table upper.entries] at placed
  exact (entries_insertAll table _).trans placed

theorem overlay_insertAll (table upper : Table κ α) (entries : List (κ × α)) :
    table.overlay (upper.insertAll entries) = (table.overlay upper).insertAll entries := by
  induction entries generalizing upper with
  | nil => rfl
  | cons entry rest ih =>
      have later := ih (upper.insert entry.1 entry.2)
      rw [overlay_insert] at later
      exact later

/-- A list of entries may be put over a table one by one or as a table. -/
theorem overlay_ofList (table : Table κ α) (entries : List (κ × α)) :
    table.overlay (ofList entries) = table.insertAll entries :=
  overlay_insertAll table empty entries

theorem place_of_new {key : κ} {entries : List (κ × α)} (new : key ∉ entries.map Prod.fst)
    (value : α) : place key value entries = entries ++ [(key, value)] := by
  induction entries with
  | nil => rfl
  | cons entry rest ih =>
      rw [List.map_cons, List.mem_cons, not_or] at new
      rw [place, if_neg (Ne.symm new.1), ih new.2]
      rfl

theorem placeAll_of_new {base upper : List (κ × α)}
    (distinct : ((base ++ upper).map Prod.fst).Nodup) : placeAll base upper = base ++ upper := by
  induction upper generalizing base with
  | nil => exact (List.append_nil base).symm
  | cons entry rest ih =>
      have new : entry.1 ∉ base.map Prod.fst := by
        rw [List.map_append, List.nodup_append] at distinct
        intro member
        exact distinct.2.2 _ member _ (List.mem_cons_self ..) rfl
      have step : placeAll base (entry :: rest) = placeAll (place entry.1 entry.2 base) rest := rfl
      have moved : base ++ entry :: rest = base ++ [entry] ++ rest := by simp
      rw [moved] at distinct ⊢
      rw [step, place_of_new new]
      exact ih distinct

/-- The entries of a table make the table again. -/
theorem ofList_entries (table : Table κ α) : ofList table.entries = table := by
  apply ext_entries
  rw [ofList, entries_insertAll]
  exact placeAll_of_new table.distinct

theorem mapValues_insert {β : Type} (table : Table κ α) (key : κ) (value : α) (f : α → β) :
    (table.insert key value).mapValues f = (table.mapValues f).insert key (f value) := by
  apply ext_entries
  have placed (entries : List (κ × α)) :
      (place key value entries).map (fun entry => (entry.1, f entry.2)) =
        place key (f value) (entries.map fun entry => (entry.1, f entry.2)) := by
    induction entries with
    | nil => rfl
    | cons entry rest ih =>
        by_cases same : entry.1 = key
        · simp [place, same]
        · simp [place, same, ih]
  exact placed table.entries

theorem mapValues_insertAll {β : Type} (table : Table κ α) (entries : List (κ × α)) (f : α → β) :
    (table.insertAll entries).mapValues f =
      (table.mapValues f).insertAll (entries.map fun entry => (entry.1, f entry.2)) := by
  induction entries generalizing table with
  | nil => rfl
  | cons entry rest ih =>
      have later := ih (table.insert entry.1 entry.2)
      rw [mapValues_insert] at later
      exact later

end Table

end Calculator
