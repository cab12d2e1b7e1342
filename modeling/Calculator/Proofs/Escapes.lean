import Calculator.Proofs.Conversion

/-!
# What escapes from loading

A document is read slot by slot: the section is looked up, the value under the
key is read, and the next slot follows. The first slot that does not let the
run pass decides how loading ends: with a report, or with a fault of another
kind, when the section is misplaced or the value escapes. Texts never escape,
so the environment cannot add such a fault.
-/

namespace Calculator.Settings

/-! ## Lookups -/

/-- A section that is no table and either cannot hold the key or holds it as a text or a list. -/
inductive Misplaced (key : String) : Value → Prop where
  | boolean (b : Bool) : Misplaced key (.boolean b)
  | integer (n : Int) : Misplaced key (.integer n)
  | float (x : Float) : Misplaced key (.float x)
  | moment (moment : Moment) : Misplaced key (.moment moment)
  | text {text : String} (occurs : key.toList <:+: text.toList) : Misplaced key (.text text)
  | list {values : List Value} (member : .text key ∈ values) : Misplaced key (.list values)

/-- The value under a key of a section that is a table. -/
def held? (holder? : Option Value) (key : String) : Option Value :=
  match holder? with
  | some (.table entries) => entries.lookup key
  | _ => none

/-- How the value under a key is found. -/
inductive LooksUp (holder? : Option Value) (key : String) :
    Except LoadFault (Option Value) → Prop where
  | misplaced {value : Value} (stands : holder? = some value) (misplaced : Misplaced key value) :
      LooksUp holder? key (.error .wrongKind)
  | placed (placed : ∀ value, holder? = some value → ¬ Misplaced key value) :
      LooksUp holder? key (.ok (held? holder? key))

theorem looksUp_found (holder? : Option Value) (key : String) :
    LooksUp holder? key (lookUp holder? key) := by
  cases holder? with
  | none => exact .placed (by rintro _ ⟨⟩)
  | some value =>
      cases value with
      | table entries => exact .placed (by rintro _ ⟨⟩ ⟨⟩)
      | boolean b => exact .misplaced rfl (.boolean b)
      | integer n => exact .misplaced rfl (.integer n)
      | float x => exact .misplaced rfl (.float x)
      | moment moment => exact .misplaced rfl (.moment moment)
      | text text =>
          change LooksUp _ key
            (if Text.occursIn key.toList text.toList then .error .wrongKind else .ok none)
          split
          next occurs => exact .misplaced rfl (.text ((Text.occursIn_iff _ _).1 occurs))
          next absent =>
            refine .placed ?_
            rintro _ ⟨⟩ (_ | _ | _ | _ | occurs)
            exact absent ((Text.occursIn_iff _ _).2 occurs)
      | list values =>
          unfold lookUp
          dsimp only
          split
          next some =>
            obtain ⟨value, member, same⟩ := List.any_eq_true.1 some
            cases value with
            | text text => exact .misplaced rfl (.list (eq_of_beq same ▸ member))
            | _ => cases same
          next none =>
            refine .placed ?_
            rintro _ ⟨⟩ (_ | _ | _ | _ | _ | listed)
            exact none (List.any_eq_true.2 ⟨_, listed, beq_self_eq_true key⟩)

/-! ## Settings of a document -/

/-- A place where a setting may stand, with the values that it accepts and those that escape. -/
structure Slot where
  holder? : Option Value
  key : String
  Accepts : Value → Prop
  Escapes : Value → Prop

namespace Slot

/-- The section is not misplaced, and the value that it holds is accepted. -/
structure Passes (slot : Slot) : Prop where
  placed : ∀ value, slot.holder? = some value → ¬ Misplaced slot.key value
  accepted : ∀ value, held? slot.holder? slot.key = some value → slot.Accepts value

/-- The section is misplaced, or the value that it holds escapes. -/
inductive Stops (slot : Slot) : Prop where
  | misplaced {value : Value} (stands : slot.holder? = some value)
      (misplaced : Misplaced slot.key value) : Stops slot
  | escapes {value : Value} (held : held? slot.holder? slot.key = some value)
      (escapes : slot.Escapes value) : Stops slot

end Slot

section

variable {α : Type} {read : Value → Except LoadFault α} {accepts : Value → α → Prop}
  {escapes : Value → Prop}

theorem unreported_override_iff (reads : Reads read accepts escapes) (settings : Settings)
    (value? : Option Value) (set : α → Settings) :
    Unreported (settings.override value? read set) ↔
      ∃ value, value? = some value ∧ escapes value := by
  cases value? with
  | none => exact iff_of_false (not_unreported_ok settings) (by rintro ⟨_, ⟨⟩, _⟩)
  | some value =>
      rw [override, unreported_map, reads.unreported_iff]
      simp

theorem exists_override_iff (reads : Reads read accepts escapes) (settings : Settings)
    (value? : Option Value) (set : α → Settings) :
    (∃ next, settings.override value? read set = .ok next) ↔
      ∀ value, value? = some value → ∃ x, accepts value x := by
  cases value? with
  | none => exact iff_of_true ⟨settings, rfl⟩ (by rintro _ ⟨⟩)
  | some value =>
      constructor
      · rintro ⟨next, done⟩ _ ⟨⟩
        obtain ⟨x, found, -⟩ := map_eq_ok done
        exact ⟨x, (reads.eq_ok_iff value x).1 found⟩
      · intro accepted
        obtain ⟨x, found⟩ := accepted value rfl
        refine ⟨set x, ?_⟩
        rw [override, (reads.eq_ok_iff value x).2 found]
        rfl

/-- A slot stops the run, or it lets the run pass to the later slots. -/
theorem unreported_slot_iff (reads : Reads read accepts escapes) {holder? : Option Value}
    {key : String} (settings : Settings) {set : α → Settings}
    {next : Settings → Except LoadFault Settings} {rest : List Slot}
    (later : ∀ settings, Unreported (next settings) ↔ First Slot.Passes Slot.Stops rest) :
    Unreported (lookUp holder? key >>= fun value? =>
        settings.override value? read set >>= next) ↔
      First Slot.Passes Slot.Stops
        (⟨holder?, key, fun value => ∃ x, accepts value x, escapes⟩ :: rest) := by
  have looksUp := looksUp_found holder? key
  rw [first_cons_iff]
  generalize lookUp holder? key = found at looksUp
  cases looksUp with
  | misplaced stands misplaced =>
      refine iff_of_true ⟨_, rfl, fun _ same => by cases same⟩ (.inl ?_)
      exact .misplaced stands misplaced
  | placed placed =>
      change Unreported (settings.override _ read set >>= next) ↔ _
      rw [unreported_bind, unreported_override_iff reads]
      refine or_congr ?_ ?_
      · constructor
        · rintro ⟨value, held, escapes⟩
          exact .escapes held escapes
        · rintro (⟨stands, misplaced⟩ | ⟨held, escapes⟩)
          · exact absurd misplaced (placed _ stands)
          · exact ⟨_, held, escapes⟩
      · simp only [later]
        rw [exists_and_right, exists_override_iff reads]
        exact and_congr_left fun _ => ⟨fun accepted => ⟨placed, accepted⟩, Slot.Passes.accepted⟩

end

/-- The slots of a document in the order in which they are read. -/
def slots (entries : List (String × Value)) : List Slot :=
  let engine := entries.lookup "engine"
  let server := entries.lookup "server"
  let logging := entries.lookup "logging"
  [⟨engine, "max_depth", fun value => ∃ depth, IsDepth value depth, EscapesUnless IsDepth⟩,
   ⟨server, "host", fun value => ∃ host, IsHost value host, fun value => value.isShowable = false⟩,
   ⟨server, "port", fun value => ∃ port, IsPort value port, EscapesUnless IsPort⟩,
   ⟨logging, "level", fun value => ∃ level, IsLevel value level,
    fun value => value.isShowable = false⟩,
   ⟨some (.table entries), "variables", fun value => ∃ values, IsTable value values, TableEscapes⟩]

theorem unreported_ofDocument_iff (entries : List (String × Value)) :
    Unreported (ofDocument entries) ↔ First Slot.Passes Slot.Stops (slots entries) := by
  unfold ofDocument
  refine unreported_slot_iff (reads_depthOf "engine.max_depth") Settings.default fun settings => ?_
  refine unreported_slot_iff reads_shown settings fun settings => ?_
  refine unreported_slot_iff (reads_portOf "server.port") settings fun settings => ?_
  refine unreported_slot_iff (reads_levelOf "logging.level") settings fun settings => ?_
  have last : settings.withTable (entries.lookup "variables") =
      (lookUp (some (.table entries)) "variables" >>= fun value? =>
        settings.withTable value? >>= pure) :=
    (bind_pure _).symm
  rw [last]
  refine unreported_slot_iff reads_variablesOf settings fun settings => ?_
  exact iff_of_false (not_unreported_ok settings) (by rintro ⟨⟩)

/-! ## Loading -/

/-- A text from the environment is accepted or reported. -/
theorem not_escapesUnless_text {α : Type} {accepts : Value → α → Prop} (text : String) :
    ¬ EscapesUnless accepts (.text text) := by
  rintro (⟨_, ⟨⟩, _⟩ | ⟨long, -⟩)
  cases (show true = false from long)

theorem exists_text_of_value? {environment : Environment} {name : String} {value : Value}
    (given : environment.value? name = some value) : ∃ text, value = .text text := by
  unfold Environment.value? at given
  split at given
  · cases given
  · cases given
  · exact ⟨_, (Option.some.inj given).symm⟩

theorem not_unreported_override {α : Type} {read : Value → Except LoadFault α}
    {accepts : Value → α → Prop} {escapes : Value → Prop} (reads : Reads read accepts escapes)
    (noText : ∀ text, ¬ escapes (.text text)) (settings : Settings) (environment : Environment)
    (name : String) (set : α → Settings) :
    ¬ Unreported (settings.override (environment.value? name) read set) := by
  rw [unreported_override_iff reads]
  rintro ⟨value, given, escapes⟩
  obtain ⟨text, rfl⟩ := exists_text_of_value? given
  exact noText text escapes

theorem not_unreported_withEnvironment (settings : Settings) (environment : Environment) :
    ¬ Unreported (settings.withEnvironment environment) := by
  have shownText (text : String) : ¬ (Value.text text).isShowable = false :=
    fun long => by cases (show true = false from long)
  unfold withEnvironment
  rw [unreported_bind]
  rintro (depth | ⟨settings, -, later⟩)
  · exact not_unreported_override (reads_depthOf _) not_escapesUnless_text _ _ _ _ depth
  rw [unreported_bind] at later
  rcases later with host | ⟨settings, -, later⟩
  · exact not_unreported_override reads_shown shownText _ _ _ _ host
  rw [unreported_bind] at later
  rcases later with port | ⟨settings, -, level⟩
  · exact not_unreported_override (reads_portOf _) not_escapesUnless_text _ _ _ _ port
  · exact not_unreported_override (reads_levelOf _) shownText _ _ _ _ level

theorem not_unreported_entries (path : String) (file : File) :
    ¬ Unreported (file.entries path) := by
  cases file with
  | document entries => exact not_unreported_ok (some entries)
  | unreadable reason => exact not_unreported_report (.unreadable path reason)

theorem not_unreported_document? (directory : Directory) (path? : Option String) :
    ¬ Unreported (document? directory path?) := by
  unfold document?
  split
  · split
    · exact not_unreported_ok none
    · exact not_unreported_entries _ _
  · dsimp only
    split
    · exact not_unreported_entries _ _
    · split
      · exact not_unreported_report _
      · exact not_unreported_entries _ _

theorem unreported_load_iff (directory : Directory) (path? : Option String)
    (environment : Environment) :
    Unreported (load directory path? environment) ↔
      ∃ entries, document? directory path? = .ok (some entries) ∧
        First Slot.Passes Slot.Stops (slots entries) := by
  unfold load
  rw [unreported_bind, or_iff_right (not_unreported_document? directory path?)]
  constructor
  · rintro ⟨document, found, unreported⟩
    cases document with
    | none => exact absurd unreported (not_unreported_withEnvironment Settings.default environment)
    | some entries =>
        rcases (unreported_bind _ _).1 unreported with inFile | ⟨settings, -, inEnvironment⟩
        · exact ⟨entries, found, (unreported_ofDocument_iff entries).1 inFile⟩
        · exact absurd inEnvironment (not_unreported_withEnvironment settings environment)
  · rintro ⟨entries, found, first⟩
    exact ⟨some entries, found, (unreported_bind _ _).2
      (.inl ((unreported_ofDocument_iff entries).2 first))⟩

theorem ends_iff {α : Type} (outcome : Except LoadFault α) :
    ((∃ x, outcome = .ok x) ∨ ∃ error, outcome = .error (.report error)) ↔
      ¬ Unreported outcome := by
  cases outcome with
  | ok x => exact iff_of_true (.inl ⟨x, rfl⟩) (not_unreported_ok x)
  | error fault =>
      cases fault with
      | report error => exact iff_of_true (.inr ⟨error, rfl⟩) (not_unreported_report error)
      | wrongKind => exact iff_of_false (by simp) (not_not_intro ⟨_, rfl, by simp⟩)
      | overflow => exact iff_of_false (by simp) (not_not_intro ⟨_, rfl, by simp⟩)

/--
Loading gives settings or a report unless the document is readable and the first of its settings
that is not accepted is misplaced or escapes. The environment makes no difference.
-/
theorem load_ends_iff (directory : Directory) (path? : Option String) (environment : Environment) :
    ((∃ settings, load directory path? environment = .ok settings) ∨
        ∃ error, load directory path? environment = .error (.report error)) ↔
      ¬ ∃ entries, document? directory path? = .ok (some entries) ∧
        First Slot.Passes Slot.Stops (slots entries) := by
  rw [ends_iff, unreported_load_iff]

/-- The file in the directory that is read when none is named. -/
def standardDirectory (entries : List (String × Value)) : Directory :=
  .ofList [(standardFile, .document entries)]

/-- An infinite depth, or a number in place of the section, is neither accepted nor reported. -/
theorem not_ends_of_infinite_depth :
    load (standardDirectory [("engine", .table [("max_depth", .float (1.0 / 0.0))])]) none
        (fun _ => none) = .error .overflow ∧
      load (standardDirectory [("engine", .integer 5)]) none (fun _ => none) =
        .error .wrongKind ∧
      ¬ ∀ (directory : Directory) (path? : Option String) (environment : Environment),
        (∃ settings, load directory path? environment = .ok settings) ∨
          ∃ error, load directory path? environment = .error (.report error) := by
  have overflow : load (standardDirectory [("engine", .table [("max_depth", .float (1.0 / 0.0))])])
      none (fun _ => none) = .error .overflow := by rfl
  refine ⟨overflow, by rfl, ?_⟩
  intro ends
  rcases ends _ none fun _ => none with ⟨settings, done⟩ | ⟨error, reported⟩
  · rw [overflow] at done
    cases done
  · rw [overflow] at reported
    cases reported

end Calculator.Settings
