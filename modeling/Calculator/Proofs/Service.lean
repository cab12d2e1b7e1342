import Calculator.Proofs.Arithmetic
import Calculator.Proofs.Errors
import Calculator.Service
import Calculator.Settings.Loading

/-!
# Answers of the service

Loaded settings keep the depth within its limits and hold doubles only. With
them every expression that is not empty is answered, whatever the request
defines: with the value of the expression, with the problem of the
expression, or with the first name that no expression could use.
-/

namespace Calculator

namespace Settings

/-- What loading promises of settings. -/
structure Loaded (settings : Settings) : Prop where
  atLeast : 1 ≤ settings.maxDepth
  atMost : settings.maxDepth ≤ maxDepthLimit
  doubles : ∃ values : Table String Float, settings.bindings = values.mapValues .double

theorem loaded_default : Loaded .default where
  atLeast := by decide
  atMost := by decide
  doubles := ⟨.empty, rfl⟩

/-- A setting that is replaced keeps what every value that can be read keeps. -/
theorem of_override {α : Type} {motive : Settings → Prop} {settings next : Settings}
    {value? : Option Value} {read : Value → Except LoadFault α} {set : α → Settings}
    (kept : motive settings) (replaced : ∀ value x, read value = .ok x → motive (set x))
    (loaded : settings.override value? read set = .ok next) : motive next := by
  cases value? with
  | none =>
      cases loaded
      exact kept
  | some value =>
      obtain ⟨x, found, rfl⟩ := map_eq_ok loaded
      exact replaced value x found

theorem refuse_ne_ok {α : Type} {value : Value} {error : LoadError} {x : α} :
    refuse value error ≠ .ok x := by
  intro done
  obtain ⟨_, _, thrown⟩ := bind_eq_ok done
  cases thrown

theorem depthOf_eq_ok {key : String} {value : Value} {depth : Int}
    (found : depthOf key value = .ok depth) : 1 ≤ depth ∧ depth ≤ maxDepthLimit := by
  obtain ⟨number, _, checked⟩ := bind_eq_ok found
  by_cases small : number < 1
  · rw [if_pos small] at checked
    obtain ⟨_, refused, _⟩ := bind_eq_ok checked
    exact absurd refused refuse_ne_ok
  · rw [if_neg small] at checked
    by_cases large : (maxDepthLimit : Int) < number
    · rw [if_pos large] at checked
      obtain ⟨_, refused, _⟩ := bind_eq_ok checked
      exact absurd refused refuse_ne_ok
    · rw [if_neg large] at checked
      cases checked
      exact ⟨Int.not_lt.1 small, Int.not_lt.1 large⟩

namespace Loaded

variable {settings next : Settings}

theorem withDepth (loaded : settings.Loaded) {key : String} {value? : Option Value}
    (done : settings.withDepth key value? = .ok next) : next.Loaded := by
  refine of_override loaded ?_ done
  intro value depth found
  obtain ⟨atLeast, atMost⟩ := depthOf_eq_ok found
  exact ⟨atLeast, atMost, loaded.doubles⟩

theorem withHost (loaded : settings.Loaded) {value? : Option Value}
    (done : settings.withHost value? = .ok next) : next.Loaded := by
  refine of_override loaded ?_ done
  intro _ _ _
  exact ⟨loaded.atLeast, loaded.atMost, loaded.doubles⟩

theorem withPort (loaded : settings.Loaded) {key : String} {value? : Option Value}
    (done : settings.withPort key value? = .ok next) : next.Loaded := by
  refine of_override loaded ?_ done
  intro _ _ _
  exact ⟨loaded.atLeast, loaded.atMost, loaded.doubles⟩

theorem withLevel (loaded : settings.Loaded) {key : String} {value? : Option Value}
    (done : settings.withLevel key value? = .ok next) : next.Loaded := by
  refine of_override loaded ?_ done
  intro _ _ _
  exact ⟨loaded.atLeast, loaded.atMost, loaded.doubles⟩

theorem withTable (loaded : settings.Loaded) {value? : Option Value}
    (done : settings.withTable value? = .ok next) : next.Loaded := by
  refine of_override loaded ?_ done
  intro _ values _
  exact ⟨loaded.atLeast, loaded.atMost, values, rfl⟩

theorem ofDocument {entries : List (String × Value)} (done : ofDocument entries = .ok next) :
    next.Loaded := by
  obtain ⟨_, _, afterDepth⟩ := bind_eq_ok done
  obtain ⟨first, depth, afterDepth⟩ := bind_eq_ok afterDepth
  obtain ⟨_, _, afterHost⟩ := bind_eq_ok afterDepth
  obtain ⟨second, host, afterHost⟩ := bind_eq_ok afterHost
  obtain ⟨_, _, afterPort⟩ := bind_eq_ok afterHost
  obtain ⟨third, port, afterPort⟩ := bind_eq_ok afterPort
  obtain ⟨_, _, afterLevel⟩ := bind_eq_ok afterPort
  obtain ⟨fourth, level, table⟩ := bind_eq_ok afterLevel
  exact ((((loaded_default.withDepth depth).withHost host).withPort port).withLevel level).withTable
    table

theorem withEnvironment (loaded : settings.Loaded) {environment : Environment}
    (done : settings.withEnvironment environment = .ok next) : next.Loaded := by
  obtain ⟨first, depth, afterDepth⟩ := bind_eq_ok done
  obtain ⟨second, host, afterHost⟩ := bind_eq_ok afterDepth
  obtain ⟨third, port, level⟩ := bind_eq_ok afterHost
  exact (((loaded.withDepth depth).withHost host).withPort port).withLevel level

end Loaded

/-- Loading gives settings within the limits, whatever the files and the environment hold. -/
theorem loaded_of_load {directory : Directory} {path? : Option String} {environment : Environment}
    {settings : Settings} (done : load directory path? environment = .ok settings) :
    settings.Loaded := by
  obtain ⟨document, _, rest⟩ := bind_eq_ok done
  cases document with
  | none => exact loaded_default.withEnvironment rest
  | some entries =>
      obtain ⟨fromFile, found, overridden⟩ := bind_eq_ok rest
      exact (Loaded.ofDocument found).withEnvironment overridden

end Settings

/-- Doubles are layered over a registry like any other numbers, and are never out of range. -/
theorem Registry.withNumbers_double (registry : Registry) (values : Table String Float) :
    registry.withNumbers (values.mapValues .double) =
      (registry.withVariables values).mapError .registry := by
  have layered (entries : List (String × Float)) :
      (entries.map fun entry => (entry.1, Decimal.Quantity.double entry.2)).foldlM
          (fun derived entry => supply (derived.setVariable entry.1) entry.2) registry =
        (registry.setAll entries).mapError SupplyError.registry := by
    induction entries generalizing registry with
    | nil => rfl
    | cons entry rest ih =>
        rw [List.map_cons, List.foldlM_cons, setAll, List.foldlM_cons]
        change (((registry.setVariable entry.1 entry.2).mapError SupplyError.registry) >>= _) = _
        cases registry.setVariable entry.1 entry.2 with
        | error error => rfl
        | ok derived => exact ih derived
  exact layered values.entries

namespace Service

/-- The variables of the settings with those of the request over them, in order. -/
theorem merged_double {settings : Settings} {values : Table String Float}
    (doubles : settings.bindings = values.mapValues .double) (request : List (String × Float)) :
    merged settings (.ofList request) = (values.insertAll request).mapValues .double := by
  have asTable : (Table.ofList request).mapValues Decimal.Quantity.double =
      .ofList (request.map fun entry => (entry.1, .double entry.2)) :=
    Table.mapValues_insertAll .empty request _
  rw [merged, doubles, asTable, Table.overlay_ofList, Table.mapValues_insertAll]

/-- The registry of the catalog with variables over its constants. -/
def catalogWith (elementary : Elementary) (bindings : Table String Float) : Registry :=
  { Catalog.registryOver elementary with
    bindings := (Table.ofList Catalog.constants).overlay bindings }

/-- The response that an expression with these variables must get. -/
inductive Answers (elementary : Elementary) (stack : Nat) (bindings : Table String Float)
    (expression : String) (maxDepth : Int) : Response → Prop where
  | unusable {before after : List (String × Float)} {name : String} {value : Float}
      (split : bindings.entries = before ++ (name, value) :: after)
      (usable : ∀ entry ∈ before, ¬ (Catalog.registryOver elementary).Unusable entry.1)
      (first : (Catalog.registryOver elementary).Unusable name) :
      Answers elementary stack bindings expression maxDepth (.ofError (.malformed name))
  | refused {error : ParseError}
      (usable : ∀ entry ∈ bindings.entries, ¬ (Catalog.registryOver elementary).Unusable entry.1)
      (failed : compile (catalogWith elementary bindings) expression maxDepth = .error error) :
      Answers elementary stack bindings expression maxDepth (.ofError error)
  | value {program : Program} {value : Float}
      (usable : ∀ entry ∈ bindings.entries, ¬ (Catalog.registryOver elementary).Unusable entry.1)
      (compiled : compile (catalogWith elementary bindings) expression maxDepth = .ok program)
      (evaluated : program.evaluateWithin stack = .ok value) :
      Answers elementary stack bindings expression maxDepth (.ofValue value)

/-- A program of the catalog has a value when the stack allows for its limit. -/
theorem exists_value_of_compile {elementary : Elementary} (lawful : elementary.Lawful)
    {bindings : Table String Float} {expression : String} {maxDepth : Int} {program : Program}
    (compiled : compile (catalogWith elementary bindings) expression maxDepth = .ok program)
    {stack : Nat} (enough : maxDepth ≤ stack) :
    ∃ value, program.evaluateWithin stack = .ok value := by
  obtain ⟨tree, complete, order, fits, itemsPull⟩ :=
    exists_tree_of_compile (Catalog.pullsArity lawful _) compiled
  have limit := evaluationDepth_of_compile compiled
  obtain ⟨value, _, evaluates⟩ := Tree.exists_value complete itemsPull order (limit ▸ fits)
  exact ⟨value, (evaluates stack (by omega)).2⟩

/-- With usable names the answer is the problem or the value of the expression. -/
theorem answers_of_usable {elementary : Elementary} (lawful : elementary.Lawful)
    {bindings : Table String Float}
    (usable : ∀ entry ∈ bindings.entries, ¬ (Catalog.registryOver elementary).Unusable entry.1)
    {stack : Nat} {maxDepth : Int} (enough : maxDepth ≤ stack) (expression : String) :
    ∃ response,
      evaluateIn stack (catalogWith elementary bindings) expression maxDepth = .ok response ∧
        Answers elementary stack bindings expression maxDepth response := by
  cases outcome : compile (catalogWith elementary bindings) expression maxDepth with
  | error error =>
      refine ⟨.ofError error, ?_, .refused usable outcome⟩
      rw [evaluateIn, outcome]
  | ok program =>
      obtain ⟨value, evaluated⟩ := exists_value_of_compile lawful outcome enough
      refine ⟨.ofValue value, ?_, .value usable outcome evaluated⟩
      rw [evaluateIn, outcome]
      dsimp only
      rw [evaluated]
      rfl

/-- An environment that asks for a depth of five. -/
def shallowEnvironment : Settings.Environment :=
  fun name => if name = "INFIXCALC_MAX_DEPTH" then some "5" else none

end Service

end Calculator
