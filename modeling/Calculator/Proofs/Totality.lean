import Calculator.Proofs.Range
import Calculator.Proofs.Service

/-!
# Every program of the catalog has a value

Integer parts are integers of any size first and doubles afterwards. The
conversion never leaves the range of doubles, because a finite double is less
than half a unit below the point where it would. With that no rule of the
catalog refuses an operand, whatever doubles it is given, and a program over
the catalog always has a value.
-/

namespace Calculator

namespace Elementary

open Decimal

/-- An integer part as a double; out of range there is none. -/
def asDouble (part : Float → Except ArithmeticFault Int) (x : Float) :
    Except ArithmeticFault Float :=
  (part x).bind fun n => (double? n).elim (.error .overflow) .ok

/-- The operations with integer parts that are integers of any size. -/
def withParts (elementary : Elementary) (ceiling flooring : Float → Except ArithmeticFault Int) :
    Elementary :=
  { elementary with ceil := asDouble ceiling, floor := asDouble flooring }

/-- The operation has the integer part of every finite operand. -/
def ComputesPart (part : Float → Except ArithmeticFault Int) (integerOf : ℚ → Int) : Prop :=
  ∀ x q, rational? x = some q → part x = .ok (integerOf q)

/-- An integer part that is no farther from zero than a bound of the operand has a double. -/
theorem onFinite_asDouble {part : Float → Except ArithmeticFault Int} {integerOf : ℚ → Int}
    (computes : ComputesPart part integerOf)
    (bounded : ∀ {q : ℚ} {bound : Nat}, |q| ≤ bound → (integerOf q).natAbs ≤ bound) :
    OnFinite (asDouble part) := by
  intro x finite
  obtain ⟨q, known⟩ := (isFinite_iff x).1 finite
  obtain ⟨y, converted⟩ :=
    exists_double?_of_le (bounded (magnitude_of_rational? known).abs_le)
  refine ⟨y, ?_⟩
  rw [asDouble, computes x q known, Except.bind, converted]
  rfl

variable {elementary : Elementary} {ceiling flooring : Float → Except ArithmeticFault Int}

theorem Lawful.withParts (lawful : elementary.Lawful) (ceilings : ComputesPart ceiling Int.ceil)
    (floors : ComputesPart flooring Int.floor) :
    (elementary.withParts ceiling flooring).Lawful :=
  { lawful with
    ceil := onFinite_asDouble ceilings natAbs_ceil_le
    floor := onFinite_asDouble floors natAbs_floor_le }

end Elementary

namespace Catalog

variable {elementary : Elementary}

/-- The catalog made with further numbers as variables, with more of them defined or layered. -/
inductive Supplied (elementary : Elementary) : Registry → Prop where
  | made {registry : Registry} {numbers : Table String Decimal.Quantity}
      (accepted : (registryOver elementary).defineAll numbers = .ok registry) :
      Supplied elementary registry
  | value {registry next : Registry} {name : String} {value : Float}
      (supplied : Supplied elementary registry)
      (accepted : registry.defineVariable name value = .ok next) : Supplied elementary next
  | layer {registry next : Registry} {values : Table String Float}
      (supplied : Supplied elementary registry)
      (accepted : registry.withVariables values = .ok next) : Supplied elementary next

/-- The registry has the operators and the functions of the catalog. -/
def HasCatalog (elementary : Elementary) (registry : Registry) : Prop :=
  registry = { registryOver elementary with bindings := registry.bindings }

namespace HasCatalog

variable {registry next : Registry}

theorem setVariable {name : String} {value : Float}
    (accepted : registry.setVariable name value = .ok next)
    (has : HasCatalog elementary registry) : HasCatalog elementary next := by
  rw [(Registry.setVariable_eq_ok accepted).2, HasCatalog, has]

theorem defineVariable {name : String} {value : Float}
    (accepted : registry.defineVariable name value = .ok next)
    (has : HasCatalog elementary registry) : HasCatalog elementary next :=
  has.setVariable (Registry.defineVariable_eq_ok accepted).2

theorem supplyVariable {name : String} {number : Decimal.Quantity}
    (accepted : registry.supplyVariable name number = .ok next)
    (has : HasCatalog elementary registry) : HasCatalog elementary next := by
  unfold Registry.supplyVariable Registry.supply at accepted
  split at accepted
  next value _ =>
    cases defined : registry.defineVariable name value with
    | error error => rw [defined] at accepted; cases accepted
    | ok result => rw [defined] at accepted; cases accepted; exact has.defineVariable defined
  next => split at accepted <;> cases accepted

theorem defineAll {numbers : Table String Decimal.Quantity}
    (accepted : registry.defineAll numbers = .ok next)
    (has : HasCatalog elementary registry) : HasCatalog elementary next := by
  unfold Registry.defineAll at accepted
  generalize numbers.entries = entries at accepted
  induction entries generalizing registry with
  | nil => cases accepted; exact has
  | cons entry rest ih =>
      rw [List.foldlM_cons] at accepted
      obtain ⟨derived, first, later⟩ := bind_eq_ok accepted
      exact ih (has.supplyVariable first) later

end HasCatalog

theorem Supplied.hasCatalog {registry : Registry} (supplied : Supplied elementary registry) :
    HasCatalog elementary registry := by
  induction supplied with
  | made accepted => exact HasCatalog.defineAll accepted rfl
  | value _ accepted has => exact has.defineVariable accepted
  | layer _ accepted has => exact Registry.of_withVariables HasCatalog.setVariable accepted has

theorem exists_valueOn? {rule : Rule} {count : Nat} (pulls : rule.Pulls count)
    {operands : List Float} (length : operands.length = count) :
    ∃ value, rule.valueOn? operands = some value :=
  Option.isSome_iff_exists.1 ((Rule.isSome_valueOn?_iff pulls operands).2 length)

/--
No rule of the catalog refuses a double: every operator has a value on two operands and every
function on as many as it takes. So every program over the catalog with further variables has a
value when it was compiled with a permitted depth.
-/
theorem evaluates_of_lawful {elementary : Elementary} (lawful : elementary.Lawful)
    {ceiling flooring : Float → Except ArithmeticFault Int}
    (ceilings : Elementary.ComputesPart ceiling Int.ceil)
    (floors : Elementary.ComputesPart flooring Int.floor) :
    (∀ definition ∈ operators (elementary.withParts ceiling flooring), ∀ left right : Float,
      ∃ value, definition.rule.valueOn? [right, left] = some value) ∧
    (∀ definition ∈ functions (elementary.withParts ceiling flooring), ∀ operands : List Float,
      operands.length = definition.arity →
        ∃ value, definition.rule.valueOn? operands = some value) ∧
    ∀ registry, Supplied (elementary.withParts ceiling flooring) registry →
      ∀ (expression : String) (maxDepth : Int) (program : Program),
        maxDepth ≤ maxDepthLimit → compile registry expression maxDepth = .ok program →
          ∃ value, program.evaluate = .ok value := by
  have total := lawful.withParts ceilings floors
  refine ⟨?_, ?_, ?_⟩
  · intro definition member left right
    exact exists_valueOn? (pulls_of_mem_operators total member) rfl
  · intro definition member operands length
    exact exists_valueOn? (pulls_of_mem_functions total member) length
  · intro registry supplied expression maxDepth program permitted compiled
    have pulls : registry.PullsArity := by
      rw [supplied.hasCatalog]
      exact pullsArity total registry.bindings
    obtain ⟨tree, _, _, value, _, evaluates⟩ := evaluateWithin_of_compile pulls compiled
    have room : maxDepth ≤ (stackLimit : Int) := permitted.trans (by decide)
    exact ⟨value, (evaluates stackLimit room).2⟩

/-- The exact integer part of a finite double. -/
def exactPart (integerOf : ℚ → Int) (x : Float) : Except ArithmeticFault Int :=
  match Decimal.rational? x with
  | some q => .ok (integerOf q)
  | none => .error (if x.isNaN then .domain else .overflow)

theorem computesPart_exactPart (integerOf : ℚ → Int) :
    Elementary.ComputesPart (exactPart integerOf) integerOf := by
  intro x q known
  rw [exactPart, known]

/-- The machine with exact integer parts and with a logarithm that is zero at one only. -/
def exactMachine : Elementary :=
  Elementary.withParts (.machineWith fun x => if x == 1.0 then 0.0 else 1.0) (exactPart Int.ceil)
    (exactPart Int.floor)

theorem evaluates_of_lawful_overflow :
    ∃ registry program,
      ((registryOver exactMachine).defineAll (.ofList [("x", .double (-1e308))]) = .ok registry ∧
        compile registry "ceil(x) ^ 3 / sign(0)" 5 = .ok program) ∧
      ∃ value, program.evaluate = .ok value := by
  have made : ∃ registry, (registryOver exactMachine).defineAll
      (.ofList [("x", .double (-1e308))]) = .ok registry := ⟨_, rfl⟩
  obtain ⟨registry, made⟩ := made
  have compiled : ∃ program, compile registry "ceil(x) ^ 3 / sign(0)" 5 = .ok program := by
    cases made
    exact ⟨_, by rfl⟩
  obtain ⟨program, compiled⟩ := compiled
  obtain ⟨-, -, evaluates⟩ := evaluates_of_lawful Elementary.lawful_machineWith_atOne
    (computesPart_exactPart Int.ceil) (computesPart_exactPart Int.floor)
  exact ⟨registry, program, ⟨made, compiled⟩,
    evaluates registry (.made made) _ 5 program (by decide) compiled⟩

end Catalog

end Calculator
