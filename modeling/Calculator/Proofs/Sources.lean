import Calculator.Proofs.Escapes
import Calculator.Proofs.Overlays

/-!
# Where settings come from

Every setting comes from the environment, from the document or from the
defaults, in this order. The value in the document must be acceptable even
when the environment has one. The variables are those of the document, and
the catalog takes them, so that a request is never refused for their sake.
-/

namespace Calculator

namespace Settings

/-! ## Layers -/

/-- What a layer makes of a setting: it keeps the one below or replaces it by what its value is. -/
inductive Given {α : Type} (accepts : Value → α → Prop) (below : α) : Option Value → α → Prop where
  | absent : Given accepts below none below
  | present {value : Value} {x : α} (accepted : accepts value x) :
      Given accepts below (some value) x

/-- A setting that comes from the environment, else from the document, else from the defaults. -/
structure Chosen {α : Type} (accepts : Value → α → Prop) (inDocument : Option Value)
    (inEnvironment : Option String) (standard chosen : α) : Prop where
  fromEnvironment : ∀ text, inEnvironment = some text → accepts (.text text) chosen
  fromDocument : inEnvironment = none → ∀ value, inDocument = some value → accepts value chosen
  fromDefaults : inEnvironment = none → inDocument = none → chosen = standard
  /-- The value in the document is acceptable, whether or not it is chosen. -/
  acceptable : ∀ value, inDocument = some value → ∃ x, accepts value x

/-- The text of a variable of the environment that is not empty. -/
def Environment.text? (environment : Environment) (name : String) : Option String :=
  (environment name).filter fun text => text != ""

theorem Environment.value?_eq (environment : Environment) (name : String) :
    environment.value? name = (environment.text? name).map .text := by
  unfold Environment.value? Environment.text?
  cases environment name with
  | none => rfl
  | some text =>
      by_cases empty : text = ""
      · subst empty
        rfl
      · simp [empty]

/-- A setting is chosen by two layers over the defaults. -/
theorem chosen_iff {α : Type} {accepts : Value → α → Prop} {inDocument : Option Value}
    {inEnvironment : Option String} {standard chosen : α} :
    Chosen accepts inDocument inEnvironment standard chosen ↔
      ∃ below, Given accepts standard inDocument below ∧
        Given accepts below (inEnvironment.map .text) chosen := by
  constructor
  · intro layers
    have document : ∃ below, Given accepts standard inDocument below ∧
        (inEnvironment = none → below = chosen) := by
      cases inDocument with
      | none => exact ⟨standard, .absent, fun absent => (layers.fromDefaults absent rfl).symm⟩
      | some value =>
          cases inEnvironment with
          | none => exact ⟨chosen, .present (layers.fromDocument rfl value rfl), fun _ => rfl⟩
          | some text =>
              obtain ⟨below, accepted⟩ := layers.acceptable value rfl
              exact ⟨below, .present accepted, by rintro ⟨⟩⟩
    obtain ⟨below, given, kept⟩ := document
    refine ⟨below, given, ?_⟩
    cases inEnvironment with
    | none => rw [kept rfl]; exact .absent
    | some text => exact .present (layers.fromEnvironment text rfl)
  · rintro ⟨below, document, environment⟩
    constructor
    · rintro text rfl
      cases environment with
      | present accepted => exact accepted
    · rintro rfl value rfl
      cases environment with
      | absent =>
          cases document with
          | present accepted => exact accepted
    · rintro rfl rfl
      cases environment
      cases document
      rfl
    · rintro value rfl
      cases document with
      | present accepted => exact ⟨_, accepted⟩

section

variable {α : Type} {read : Value → Except LoadFault α} {accepts : Value → α → Prop}
  {escapes : Value → Prop} {settings next : Settings} {set : α → Settings}

/-- Replacing a setting adds a layer to it and leaves the others as they are. -/
theorem override_eq_ok_iff (reads : Reads read accepts escapes) {value? : Option Value} (below : α)
    (kept : set below = settings) : settings.override value? read set = .ok next ↔
      ∃ x, Given accepts below value? x ∧ next = set x := by
  cases value? with
  | none =>
      constructor
      · rintro ⟨⟩
        exact ⟨below, .absent, kept.symm⟩
      · rintro ⟨_, ⟨⟩, rfl⟩
        rw [override, kept]
  | some value =>
      constructor
      · intro done
        obtain ⟨x, found, rfl⟩ := map_eq_ok done
        exact ⟨x, .present ((reads.eq_ok_iff value x).1 found), rfl⟩
      · rintro ⟨x, given, rfl⟩
        cases given with
        | present accepted =>
            rw [override, (reads.eq_ok_iff value x).2 accepted]
            rfl

theorem withDepth_eq_ok_iff (key : String) {value? : Option Value} :
    settings.withDepth key value? = .ok next ↔
      ∃ depth, Given IsDepth settings.maxDepth value? depth ∧
        next = { settings with maxDepth := depth } :=
  override_eq_ok_iff (reads_depthOf key) settings.maxDepth rfl

theorem withHost_eq_ok_iff {value? : Option Value} :
    settings.withHost value? = .ok next ↔
      ∃ host, Given IsHost settings.host value? host ∧ next = { settings with host := host } :=
  override_eq_ok_iff reads_shown settings.host rfl

theorem withPort_eq_ok_iff (key : String) {value? : Option Value} :
    settings.withPort key value? = .ok next ↔
      ∃ port, Given IsPort settings.port value? port ∧ next = { settings with port := port } :=
  override_eq_ok_iff (reads_portOf key) settings.port rfl

theorem withLevel_eq_ok_iff (key : String) {value? : Option Value} :
    settings.withLevel key value? = .ok next ↔
      ∃ level, Given IsLevel settings.logLevel value? level ∧
        next = { settings with logLevel := level } :=
  override_eq_ok_iff (reads_levelOf key) settings.logLevel rfl

/-- The table of variables lies over variables that are doubles. -/
theorem withTable_eq_ok_iff {value? : Option Value} {below : Table String Float}
    (doubles : settings.bindings = below.mapValues .double) :
    settings.withTable value? = .ok next ↔
      ∃ values, Given IsTable below value? values ∧
        next = { settings with bindings := values.mapValues .double } :=
  override_eq_ok_iff reads_variablesOf below (by rw [← doubles])

end

/-! ## Documents -/

/-- A section is a table, or it is not there, or the key does not occur in it. -/
def IsPlaced (holder? : Option Value) (key : String) : Prop :=
  ∀ value, holder? = some value → ¬ Misplaced key value

theorem lookUp_eq_ok_iff {holder? : Option Value} {key : String} {value? : Option Value} :
    lookUp holder? key = .ok value? ↔ IsPlaced holder? key ∧ held? holder? key = value? := by
  have looksUp := looksUp_found holder? key
  generalize lookUp holder? key = found at looksUp
  cases looksUp with
  | misplaced stands misplaced =>
      refine iff_of_false (by rintro ⟨⟩) ?_
      rintro ⟨placed, _⟩
      exact placed _ stands misplaced
  | placed placed =>
      rw [Except.ok.injEq]
      exact (and_iff_right placed).symm

/-- The places in which the settings of a document are looked up. -/
structure Placed (entries : List (String × Value)) : Prop where
  maxDepth : IsPlaced (entries.lookup "engine") "max_depth"
  host : IsPlaced (entries.lookup "server") "host"
  port : IsPlaced (entries.lookup "server") "port"
  logLevel : IsPlaced (entries.lookup "logging") "level"

/-- The value under a key of a section of the document, if there is a document. -/
def documentValue? (document : Option (List (String × Value))) (sectionKey key : String) :
    Option Value :=
  document.bind fun entries => held? (entries.lookup sectionKey) key

/-- Settings that a document, if there is one, gives over the defaults. -/
structure FromDocument (document : Option (List (String × Value))) (settings : Settings)
    (values : Table String Float) : Prop where
  maxDepth : Given IsDepth 200 (documentValue? document "engine" "max_depth") settings.maxDepth
  host : Given IsHost "127.0.0.1" (documentValue? document "server" "host") settings.host
  port : Given IsPort 8000 (documentValue? document "server" "port") settings.port
  logLevel : Given IsLevel .info (documentValue? document "logging" "level") settings.logLevel
  bindings : settings.bindings = values.mapValues .double
  table : Given IsTable .empty (document.bind fun entries => entries.lookup "variables") values

theorem fromDocument_none_iff (settings : Settings) (values : Table String Float) :
    FromDocument none settings values ↔ settings = .default ∧ values = .empty := by
  obtain ⟨maxDepth, host, port, logLevel, bindings⟩ := settings
  constructor
  · rintro ⟨⟨⟩, ⟨⟩, ⟨⟩, ⟨⟩, rfl, ⟨⟩⟩
    exact ⟨rfl, rfl⟩
  · rintro ⟨⟨⟩, rfl⟩
    exact ⟨.absent, .absent, .absent, .absent, rfl, .absent⟩

theorem ofDocument_eq_ok_iff (entries : List (String × Value)) (settings : Settings) :
    ofDocument entries = .ok settings ↔
      Placed entries ∧ ∃ values, FromDocument (some entries) settings values := by
  unfold ofDocument
  simp only [bind_eq_ok_iff, lookUp_eq_ok_iff]
  constructor
  · rintro ⟨_, ⟨inEngine, rfl⟩, _, depthRead, _, ⟨hostInServer, rfl⟩, _, hostRead, _,
      ⟨portInServer, rfl⟩, _, portRead, _, ⟨inLogging, rfl⟩, _, levelRead, tableRead⟩
    obtain ⟨depth, givenDepth, rfl⟩ := (withDepth_eq_ok_iff _).1 depthRead
    obtain ⟨host, givenHost, rfl⟩ := withHost_eq_ok_iff.1 hostRead
    obtain ⟨port, givenPort, rfl⟩ := (withPort_eq_ok_iff _).1 portRead
    obtain ⟨level, givenLevel, rfl⟩ := (withLevel_eq_ok_iff _).1 levelRead
    obtain ⟨values, givenTable, rfl⟩ := (@withTable_eq_ok_iff _ _ _ .empty rfl).1 tableRead
    exact ⟨⟨inEngine, hostInServer, portInServer, inLogging⟩,
      values, givenDepth, givenHost, givenPort, givenLevel, rfl, givenTable⟩
  · rintro ⟨placed, values, given⟩
    obtain ⟨depth, host, port, level, bindings⟩ := settings
    cases given.bindings
    exact ⟨_, ⟨placed.maxDepth, rfl⟩, _, (withDepth_eq_ok_iff _).2 ⟨depth, given.maxDepth, rfl⟩,
      _, ⟨placed.host, rfl⟩, _, withHost_eq_ok_iff.2 ⟨host, given.host, rfl⟩,
      _, ⟨placed.port, rfl⟩, _, (withPort_eq_ok_iff _).2 ⟨port, given.port, rfl⟩,
      _, ⟨placed.logLevel, rfl⟩, _, (withLevel_eq_ok_iff _).2 ⟨level, given.logLevel, rfl⟩,
      (withTable_eq_ok_iff rfl).2 ⟨values, given.table, rfl⟩⟩

/-! ## The environment -/

/-- What an environment makes of the settings below it. -/
structure Overridden (environment : Environment) (below settings : Settings) : Prop where
  maxDepth : Given IsDepth below.maxDepth
    ((environment.text? "INFIXCALC_MAX_DEPTH").map .text) settings.maxDepth
  host : Given IsHost below.host ((environment.text? "INFIXCALC_HOST").map .text) settings.host
  port : Given IsPort below.port ((environment.text? "INFIXCALC_PORT").map .text) settings.port
  logLevel : Given IsLevel below.logLevel
    ((environment.text? "INFIXCALC_LOG_LEVEL").map .text) settings.logLevel
  bindings : settings.bindings = below.bindings

theorem withEnvironment_eq_ok_iff (environment : Environment) (below settings : Settings) :
    below.withEnvironment environment = .ok settings ↔ Overridden environment below settings := by
  unfold withEnvironment
  simp only [bind_eq_ok_iff, environment.value?_eq]
  constructor
  · rintro ⟨_, depthRead, _, hostRead, _, portRead, levelRead⟩
    obtain ⟨depth, givenDepth, rfl⟩ := (withDepth_eq_ok_iff _).1 depthRead
    obtain ⟨host, givenHost, rfl⟩ := withHost_eq_ok_iff.1 hostRead
    obtain ⟨port, givenPort, rfl⟩ := (withPort_eq_ok_iff _).1 portRead
    obtain ⟨level, givenLevel, rfl⟩ := (withLevel_eq_ok_iff _).1 levelRead
    exact ⟨givenDepth, givenHost, givenPort, givenLevel, rfl⟩
  · intro overridden
    obtain ⟨depth, host, port, level, bindings⟩ := settings
    cases overridden.bindings
    exact ⟨_, (withDepth_eq_ok_iff _).2 ⟨depth, overridden.maxDepth, rfl⟩,
      _, withHost_eq_ok_iff.2 ⟨host, overridden.host, rfl⟩,
      _, (withPort_eq_ok_iff _).2 ⟨port, overridden.port, rfl⟩,
      (withLevel_eq_ok_iff _).2 ⟨level, overridden.logLevel, rfl⟩⟩

/-- Settings whose layers are the environment, a document, if there is one, and the defaults. -/
structure Layered (document : Option (List (String × Value))) (environment : Environment)
    (settings : Settings) (values : Table String Float) : Prop where
  maxDepth : Chosen IsDepth (documentValue? document "engine" "max_depth")
    (environment.text? "INFIXCALC_MAX_DEPTH") 200 settings.maxDepth
  host : Chosen IsHost (documentValue? document "server" "host")
    (environment.text? "INFIXCALC_HOST") "127.0.0.1" settings.host
  port : Chosen IsPort (documentValue? document "server" "port")
    (environment.text? "INFIXCALC_PORT") 8000 settings.port
  logLevel : Chosen IsLevel (documentValue? document "logging" "level")
    (environment.text? "INFIXCALC_LOG_LEVEL") .info settings.logLevel
  bindings : settings.bindings = values.mapValues .double
  /-- The environment adds no variables to those of the document. -/
  table : Given IsTable .empty (document.bind fun entries => entries.lookup "variables") values

theorem layered_iff (document : Option (List (String × Value))) (environment : Environment)
    (settings : Settings) (values : Table String Float) :
    Layered document environment settings values ↔
      ∃ below, FromDocument document below values ∧ Overridden environment below settings := by
  constructor
  · intro layers
    obtain ⟨depth, depthBelow, depthAbove⟩ := chosen_iff.1 layers.maxDepth
    obtain ⟨host, hostBelow, hostAbove⟩ := chosen_iff.1 layers.host
    obtain ⟨port, portBelow, portAbove⟩ := chosen_iff.1 layers.port
    obtain ⟨level, levelBelow, levelAbove⟩ := chosen_iff.1 layers.logLevel
    exact ⟨⟨depth, host, port, level, values.mapValues .double⟩,
      ⟨depthBelow, hostBelow, portBelow, levelBelow, rfl, layers.table⟩,
      ⟨depthAbove, hostAbove, portAbove, levelAbove, layers.bindings⟩⟩
  · rintro ⟨below, given, overridden⟩
    exact ⟨chosen_iff.2 ⟨_, given.maxDepth, overridden.maxDepth⟩,
      chosen_iff.2 ⟨_, given.host, overridden.host⟩,
      chosen_iff.2 ⟨_, given.port, overridden.port⟩,
      chosen_iff.2 ⟨_, given.logLevel, overridden.logLevel⟩,
      overridden.bindings.trans given.bindings, given.table⟩

/-! ## Loading -/

/-- The document that is read: the named one, or the standard one if it is there. -/
inductive Opens (directory : Directory) : Option String → Option (List (String × Value)) → Prop where
  | none (missing : directory.find? "infixcalc.toml" = none) : Opens directory none none
  | standard {entries : List (String × Value)}
      (stored : directory.find? "infixcalc.toml" = some (.document entries)) :
      Opens directory none (some entries)
  | named {path : String} {entries : List (String × Value)} (below : isAbove (shortPath path) = false)
      (stored : directory.find? (shortPath path) = some (.document entries)) :
      Opens directory (some path) (some entries)

theorem entries_eq_ok_iff (path : String) (file : File) (document : Option (List (String × Value))) :
    file.entries path = .ok document ↔ ∃ entries, file = .document entries ∧ document = some entries := by
  cases file with
  | document entries =>
      constructor
      · rintro ⟨⟩
        exact ⟨entries, rfl, rfl⟩
      · rintro ⟨_, ⟨⟩, rfl⟩
        rfl
  | unreadable reason => exact iff_of_false (by rintro ⟨⟩) (by rintro ⟨_, ⟨⟩, _⟩)

theorem document?_eq_ok_iff (directory : Directory) (path? : Option String)
    (document : Option (List (String × Value))) :
    document? directory path? = .ok document ↔ Opens directory path? document := by
  cases path? with
  | none =>
      unfold document?
      dsimp only
      cases stored : directory.find? standardFile with
      | none =>
          constructor
          · rintro ⟨⟩
            exact .none stored
          · rintro (_ | again)
            · rfl
            · cases stored.symm.trans again
      | some file =>
          dsimp only
          rw [entries_eq_ok_iff]
          constructor
          · rintro ⟨entries, rfl, rfl⟩
            exact .standard stored
          · rintro (missing | again)
            · cases stored.symm.trans missing
            · cases stored.symm.trans again
              exact ⟨_, rfl, rfl⟩
  | some path =>
      unfold document?
      dsimp only
      split
      next above =>
        refine iff_of_false (by rintro ⟨⟩) ?_
        rintro (_ | _ | ⟨below, _⟩)
        rw [above] at below
        cases below
      next below =>
        split
        next missing =>
          refine iff_of_false (by rintro ⟨⟩) ?_
          rintro (_ | _ | ⟨_, stored⟩)
          cases missing.symm.trans stored
        next file stored =>
          rw [entries_eq_ok_iff]
          constructor
          · rintro ⟨entries, rfl, rfl⟩
            exact .named (Bool.eq_false_iff.2 below) stored
          · rintro (_ | _ | ⟨_, again⟩)
            cases stored.symm.trans again
            exact ⟨_, rfl, rfl⟩

/-- Settings are loaded exactly when a document can be read, or there is none to be read, no section
is misplaced and every setting has an acceptable value in each of its layers. -/
theorem load_eq_ok_iff (directory : Directory) (path? : Option String) (environment : Environment)
    (settings : Settings) :
    load directory path? environment = .ok settings ↔
      ∃ document values, Opens directory path? document ∧
        (∀ entries, document = some entries → Placed entries) ∧
          Layered document environment settings values := by
  constructor
  · intro done
    obtain ⟨document, found, done⟩ := bind_eq_ok done
    have opens := (document?_eq_ok_iff ..).1 found
    cases document with
    | none =>
        have given := (fromDocument_none_iff _ _).2 ⟨rfl, rfl⟩
        have overridden := (withEnvironment_eq_ok_iff _ Settings.default _).1 done
        exact ⟨none, .empty, opens, by rintro _ ⟨⟩, (layered_iff ..).2 ⟨_, given, overridden⟩⟩
    | some entries =>
        obtain ⟨below, read, done⟩ := bind_eq_ok done
        obtain ⟨placed, values, given⟩ := (ofDocument_eq_ok_iff entries below).1 read
        have overridden := (withEnvironment_eq_ok_iff ..).1 done
        exact ⟨some entries, values, opens, by rintro _ ⟨⟩; exact placed,
          (layered_iff ..).2 ⟨below, given, overridden⟩⟩
  · rintro ⟨document, values, opens, placed, layered⟩
    obtain ⟨below, given, overridden⟩ := (layered_iff ..).1 layered
    have done := (withEnvironment_eq_ok_iff ..).2 overridden
    refine bind_eq_ok_iff.2 ⟨document, (document?_eq_ok_iff ..).2 opens, ?_⟩
    cases document with
    | none =>
        obtain ⟨rfl, -⟩ := (fromDocument_none_iff ..).1 given
        exact done
    | some entries =>
        have read := (ofDocument_eq_ok_iff entries below).2 ⟨placed entries rfl, values, given⟩
        exact bind_eq_ok_iff.2 ⟨below, read, done⟩

/-! ## Variables -/

/-- The catalog takes the variables of a document, or there are none. -/
theorem exists_withVariables_of_given {value? : Option Value} {values : Table String Float}
    (given : Given IsTable .empty value? values) :
    ∃ registry, Catalog.registry.withVariables values = .ok registry := by
  cases given with
  | absent => exact ⟨Catalog.registry, rfl⟩
  | present accepted =>
      obtain ⟨_, _, _, _, _, taken⟩ := accepted
      exact taken

end Settings

namespace Registry

variable {registry layered : Registry}

theorem usable_of_withVariables {values : Table String Float}
    (taken : registry.withVariables values = .ok layered) {name : String}
    (known : name ∈ values.keys) : ¬ registry.Unusable name := by
  obtain ⟨entry, member, rfl⟩ := List.mem_map.1 known
  rcases registry.usable_or_first_unusable values.entries with
    usable | ⟨before, name, value, after, split, usable, first⟩
  · exact usable entry member
  · obtain ⟨error, refused, -⟩ := withVariables_of_unusable split usable first
    rw [refused] at taken
    cases taken

/-- Where some variables are taken, more of them are refused only for a name that is not theirs. -/
theorem name_of_overlay_refused {lower upper : Table String Float}
    (taken : registry.withVariables lower = .ok layered) {error : RegistryError}
    (refused : registry.withVariables (lower.overlay upper) = .error error) :
    registry.Unusable error.name ∧ error.name ∈ upper.keys ∧ error.name ∉ lower.keys := by
  rcases registry.usable_or_first_unusable (lower.overlay upper).entries with
    usable | ⟨before, name, value, after, split, usable, first⟩
  · rw [withVariables_of_usable usable] at refused
    cases refused
  · obtain ⟨_, reported, rfl⟩ := withVariables_of_unusable split usable first
    cases reported.symm.trans refused
    have notLower : error.name ∉ lower.keys := fun known => usable_of_withVariables taken known first
    refine ⟨first, ?_, notLower⟩
    have member : (error.name, value) ∈ (lower.overlay upper).entries := by
      rw [split]
      exact List.mem_append_right _ (List.mem_cons_self ..)
    rcases Table.mem_insertAll member with inLower | inUpper
    · exact absurd (List.mem_map_of_mem inLower) notLower
    · exact List.mem_map_of_mem inUpper

end Registry

namespace Settings

/--
Settings that are loaded lie within their bounds and have every value from the right layer. The
catalog takes their variables, and a request over them is refused only for a name of its own that no
expression could use.
-/
theorem layered_of_load {directory : Directory} {path? : Option String} {environment : Environment}
    {settings : Settings} (done : load directory path? environment = .ok settings) :
    (1 ≤ settings.maxDepth ∧ settings.maxDepth ≤ 300) ∧ (0 : Int) ≤ settings.port ∧
      settings.logLevel.name ∈ ["CRITICAL", "ERROR", "WARNING", "INFO", "DEBUG"] ∧
      (∃ document values, Opens directory path? document ∧
        (∀ entries, document = some entries → Placed entries) ∧
          Layered document environment settings values) ∧
      (∃ registry, Service.registry settings = .ok registry) ∧
      ∀ (request : Table String Float) (error : SupplyError),
        Catalog.registry.withNumbers (Service.merged settings request) = .error error →
          ∃ refused : RegistryError, error = .registry refused ∧
            Catalog.registry.Unusable refused.name ∧ refused.name ∈ request.keys ∧
              refused.name ∉ settings.bindings.keys := by
  have limits := loaded_of_load done
  obtain ⟨document, values, opens, placed, layered⟩ := (load_eq_ok_iff ..).1 done
  obtain ⟨registry, taken⟩ := exists_withVariables_of_given layered.table
  have keys : settings.bindings.keys = values.keys := by
    rw [layered.bindings]
    simp [Table.keys, Table.mapValues, Function.comp_def]
  refine ⟨⟨limits.atLeast, limits.atMost⟩, Int.natCast_nonneg _, ?_,
    ⟨document, values, opens, placed, layered⟩, ⟨registry, ?_⟩, ?_⟩
  · cases settings.logLevel <;> decide
  · rw [Service.registry, layered.bindings, Registry.withNumbers_double, taken]
    rfl
  · intro request error failed
    have merged := Service.merged_double layered.bindings request.entries
    rw [Table.ofList_entries] at merged
    rw [merged, Registry.withNumbers_double] at failed
    cases outcome : Catalog.registry.withVariables (values.insertAll request.entries) with
    | ok registry =>
        rw [outcome] at failed
        cases failed
    | error refused =>
        rw [outcome] at failed
        cases failed
        rw [keys]
        exact ⟨refused, rfl, Registry.name_of_overlay_refused taken outcome⟩

/--
A named document gives a day as the host and a port, and variables. An environment replaces its
depth and its level, and the standard document is not read.
-/
theorem layered_of_load_overridden :
    let host : Value := .moment (.date ⟨2024, 2, 29, by decide, by decide, by decide⟩)
    let directory : Directory := .ofList [
      ("infixcalc.toml", .document [("server", .table [("port", .integer 7)])]),
      ("conf/app.toml", .document [("engine", .table [("max_depth", .text " 1_2 ")]),
        ("server", .table [("host", host), ("port", .float 80.5)]),
        ("logging", .table [("level", .text "debug")]),
        ("variables", .table [("g", .float 9.5)])])]
    let environment : Environment := fun name =>
      if name = "INFIXCALC_MAX_DEPTH" then some "5"
      else if name = "INFIXCALC_LOG_LEVEL" then some " warnıng\n"
      else none
    ∃ settings, load directory (some "./conf//app.toml") environment = .ok settings ∧
      settings.maxDepth = 5 ∧ settings.host = "2024-02-29" ∧ settings.port = 80 ∧
      settings.logLevel = .warning ∧
      (∃ document values, Opens directory (some "./conf//app.toml") document ∧
        (∀ entries, document = some entries → Placed entries) ∧
          Layered document environment settings values) ∧
      ∃ registry, Service.registry settings = .ok registry := by
  intro host directory environment
  have loaded : load directory (some "./conf//app.toml") environment =
      .ok ⟨5, "2024-02-29", 80, .warning, .ofList [("g", .double 9.5)]⟩ := by rfl
  obtain ⟨-, -, -, layered, registry, -⟩ := layered_of_load loaded
  exact ⟨_, loaded, rfl, rfl, rfl, rfl, layered, registry⟩

end Settings

end Calculator
