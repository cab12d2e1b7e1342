import Calculator.Proofs.Catalog
import Calculator.Proofs.Evaluation

/-!
# The catalog has values only

The elementary operations refuse operands for known reasons: a division by a
zero, a logarithm of what is not positive, the integer part of what is not
finite. The operations of the catalog never pass on such operands, or answer
the refusal with a value of their own, so every rule of the catalog pulls its
operands and then has a value.
-/

namespace Calculator

namespace Elementary

/-- The operation refuses an operand only because it is out of the domain. -/
def RefusesDomain (f : Float → Except ArithmeticFault Float) : Prop :=
  ∀ x fault, f x = .error fault → fault = .domain

/-- The operation has a value for every positive operand. -/
def OnPositive (f : Float → Except ArithmeticFault Float) : Prop :=
  ∀ x : Float, x.isNaN = false → ¬ x ≤ 0.0 → ∃ value, f x = .ok value

/-- The operation has a value for every finite operand. -/
def OnFinite (f : Float → Except ArithmeticFault Float) : Prop :=
  ∀ x : Float, x.isFinite = true → ∃ value, f x = .ok value

/-- What is known of the elementary operations. -/
structure Lawful (elementary : Elementary) : Prop where
  divide : ∀ left right : Float, (right == 0.0) = false →
    ∃ value, elementary.divide left right = .ok value
  power : ∀ base exponent, elementary.power base exponent ≠ .error .zeroDivision
  sin : RefusesDomain elementary.sin
  cos : RefusesDomain elementary.cos
  tan : RefusesDomain elementary.tan
  sqrt : RefusesDomain elementary.sqrt
  log : OnPositive elementary.log
  /-- The logarithm is zero at one only. -/
  log_eq_zero : ∀ x value, elementary.log x = .ok value → (value == 0.0) = true →
    (x == 1.0) = true
  log2 : OnPositive elementary.log2
  log10 : OnPositive elementary.log10
  ceil : OnFinite elementary.ceil
  floor : OnFinite elementary.floor

theorem refusesDomain_checked (f : Float → Float) : RefusesDomain (checked f) := by
  intro x fault refused
  unfold checked at refused
  split at refused
  · cases refused
    rfl
  · cases refused

theorem onPositive_checkedLog (f : Float → Float) : OnPositive (checkedLog f) := by
  intro x _ positive
  exact ⟨f x, if_neg positive⟩

theorem onFinite_checkedRound (f : Float → Float) : OnFinite (checkedRound f) := by
  intro x finite
  have kinds : x.isNaN = false ∧ x.isInf = false := by
    unfold Float.isFinite Float.Model.isFinite at finite
    unfold Float.isNaN Float.Model.isNaN Float.isInf Float.Model.isInf
    cases shape : x.toModel.unpack with
    | notANumber => rw [shape] at finite; cases finite
    | infinity sign => rw [shape] at finite; cases finite
    | zero sign => exact ⟨rfl, rfl⟩
    | finite sign mantissa exponent canonical => exact ⟨rfl, rfl⟩
  refine ⟨f x + 0.0, ?_⟩
  rw [checkedRound, kinds.1, kinds.2]
  rfl

/-- The operations of the machine with a logarithm of their own. -/
def machineWith (logarithm : Float → Float) : Elementary :=
  { machine with log := checkedLog logarithm }

/-- The machine is lawful when its logarithm is zero at one only. -/
theorem lawful_machineWith {logarithm : Float → Float}
    (atOne : ∀ x, (logarithm x == 0.0) = true → (x == 1.0) = true) :
    (machineWith logarithm).Lawful where
  divide left right notZero :=
    ⟨left / right, by simp [machineWith, machine, checkedDivide, notZero]⟩
  power base exponent := by
    simp only [machineWith, machine, checkedPower]
    split
    · split
      · simp
      · simp
    · simp
  sin := refusesDomain_checked Float.sin
  cos := refusesDomain_checked Float.cos
  tan := refusesDomain_checked Float.tan
  sqrt := refusesDomain_checked Float.sqrt
  log := onPositive_checkedLog logarithm
  log_eq_zero := by
    intro x value found zero
    simp only [machineWith, checkedLog] at found
    split at found
    · cases found
    · cases found
      exact atOne x zero
  log2 := onPositive_checkedLog Float.log2
  log10 := onPositive_checkedLog Float.log10
  ceil := onFinite_checkedRound Float.ceil
  floor := onFinite_checkedRound Float.floor

theorem lawful_machineWith_atOne :
    (machineWith fun x => if x == 1.0 then 0.0 else 1.0).Lawful := by
  apply lawful_machineWith
  intro x zero
  by_cases one : (x == 1.0) = true
  · exact one
  · rw [if_neg one] at zero
    exact absurd zero (by decide)

end Elementary

namespace Arithmetic

variable {elementary : Elementary}

/-- A double that is neither less than another nor equal to it is not at most the other. -/
theorem not_le {x y : Float} (notLess : ¬ x < y) (notEqual : (x == y) = false) : ¬ x ≤ y := by
  -- All three comparisons read one outcome, which is none when there is no number.
  have less : (x < y) ↔ (x.toModel.unpack.compare y.toModel.unpack == some .lt) = true := by
    change decide ((x.toModel.unpack.compare y.toModel.unpack == some .lt) = true) = true ↔ _
    rw [decide_eq_true_eq]
  have equal : (x == y) = (x.toModel.unpack.compare y.toModel.unpack == some .eq) := rfl
  have atMost : (x ≤ y) ↔
      (x.toModel.unpack.compare y.toModel.unpack).any (fun outcome => outcome.isLE) = true := by
    change decide ((x.toModel.unpack.compare y.toModel.unpack).any
      (fun outcome => outcome.isLE) = true) = true ↔ _
    rw [decide_eq_true_eq]
  rw [less] at notLess
  rw [equal] at notEqual
  rw [atMost]
  cases order : x.toModel.unpack.compare y.toModel.unpack with
  | none => simp
  | some outcome =>
      rw [order] at notLess notEqual
      cases outcome with
      | lt => exact absurd rfl notLess
      | eq => cases notEqual
      | gt => exact Bool.false_ne_true

theorem divide_total (lawful : elementary.Lawful) (left right : Float) :
    ∃ value, divide elementary left right = .ok value := by
  unfold divide
  cases zero : right == 0.0 with
  | true =>
      rw [if_pos rfl]
      split
      · exact ⟨_, rfl⟩
      · exact ⟨_, rfl⟩
  | false =>
      rw [if_neg Bool.false_ne_true]
      exact lawful.divide left right zero

theorem power_total (lawful : elementary.Lawful) (base exponent : Float) :
    ∃ value, power elementary base exponent = .ok value := by
  unfold power
  cases outcome : elementary.power base exponent with
  | ok value => exact ⟨value, rfl⟩
  | error fault =>
      cases fault with
      | zeroDivision => exact absurd outcome (lawful.power base exponent)
      | domain => exact ⟨_, rfl⟩
      | overflow => exact ⟨_, rfl⟩

theorem logOver_total (lawful : elementary.Lawful) {value base : Float}
    (number : value.isNaN = false) (positive : ¬ value ≤ 0.0) (baseNumber : base.isNaN = false)
    (basePositive : ¬ base ≤ 0.0) (notOne : (base == 1.0) = false) :
    ∃ result, logOver elementary value base = .ok result := by
  obtain ⟨numerator, found⟩ := lawful.log value number positive
  obtain ⟨denominator, baseFound⟩ := lawful.log base baseNumber basePositive
  have notZero : (denominator == 0.0) = false := by
    rw [Bool.eq_false_iff]
    intro zero
    rw [lawful.log_eq_zero base denominator baseFound zero] at notOne
    cases notOne
  rw [logOver, found, baseFound]
  exact lawful.divide numerator denominator notZero

theorem log_total (lawful : elementary.Lawful) (value base : Float) :
    ∃ result, log elementary value base = .ok result := by
  unfold log
  split
  next => exact ⟨_, rfl⟩
  next defined =>
    simp only [Bool.or_eq_true, decide_eq_true_eq, not_or, Bool.not_eq_true] at defined
    obtain ⟨⟨⟨⟨number, baseNumber⟩, notNegative⟩, basePositive⟩, notOne⟩ := defined
    split
    next => exact ⟨_, rfl⟩
    next notZero =>
      have positive := not_le notNegative (Bool.eq_false_iff.2 notZero)
      split
      next => exact ⟨_, rfl⟩
      next =>
        split
        next => exact lawful.log10 value number positive
        next =>
          split
          next => exact lawful.log2 value number positive
          next => exact logOver_total lawful number positive baseNumber basePositive notOne

theorem orNaN_total {f : Float → Except ArithmeticFault Float}
    (refuses : Elementary.RefusesDomain f) (x : Float) : ∃ value, orNaN f x = .ok value := by
  unfold orNaN
  cases outcome : f x with
  | ok value => exact ⟨value, rfl⟩
  | error fault =>
      cases refuses x fault outcome
      exact ⟨_, rfl⟩

theorem round_total {f : Float → Except ArithmeticFault Float}
    (onFinite : Elementary.OnFinite f) (x : Float) : ∃ value, round f x = .ok value := by
  unfold round
  split
  next finite => exact onFinite x finite
  next => exact ⟨x, rfl⟩

end Arithmetic

namespace Rule

theorem pulls_ofOutcome {outcome : Except ArithmeticFault Float}
    (total : ∃ value, outcome = .ok value) : (ofOutcome outcome).Pulls 0 := by
  obtain ⟨value, rfl⟩ := total
  exact .value value

theorem pulls_unary {f : Float → Except ArithmeticFault Float}
    (total : ∀ x, ∃ value, f x = .ok value) : (unary f).Pulls 1 :=
  .pull fun x => pulls_ofOutcome (total x)

theorem pulls_binary {f : Float → Float → Except ArithmeticFault Float}
    (total : ∀ x y, ∃ value, f x y = .ok value) : (binary f).Pulls 2 :=
  .pull fun right => .pull fun left => pulls_ofOutcome (total left right)

end Rule

namespace Catalog

open Arithmetic

variable {elementary : Elementary}

theorem pulls_of_mem_operators (lawful : elementary.Lawful) {definition : Operator}
    (member : definition ∈ operators elementary) : definition.rule.Pulls 2 := by
  simp only [operators, List.mem_cons, List.not_mem_nil, or_false] at member
  rcases member with rfl | rfl | rfl | rfl | rfl
  · exact Rule.pulls_binary fun x y => ⟨_, rfl⟩
  · exact Rule.pulls_binary fun x y => ⟨_, rfl⟩
  · exact Rule.pulls_binary fun x y => ⟨_, rfl⟩
  · exact Rule.pulls_binary (divide_total lawful)
  · exact Rule.pulls_binary (power_total lawful)

theorem pulls_of_mem_functions (lawful : elementary.Lawful) {definition : Function}
    (member : definition ∈ functions elementary) : definition.rule.Pulls definition.arity := by
  simp only [functions, List.mem_cons, List.not_mem_nil, or_false] at member
  rcases member with rfl | rfl | rfl | rfl | rfl | rfl | rfl | rfl | rfl | rfl | rfl | rfl | rfl | rfl
  · exact Rule.pulls_unary (orNaN_total lawful.sin)
  · exact Rule.pulls_unary (orNaN_total lawful.cos)
  · exact Rule.pulls_unary (orNaN_total lawful.tan)
  · exact Rule.pulls_unary fun x => ⟨_, rfl⟩
  · exact Rule.pulls_unary fun x => ⟨_, rfl⟩
  · exact Rule.pulls_binary fun x y => ⟨_, rfl⟩
  · exact Rule.pulls_binary fun x y => ⟨_, rfl⟩
  · exact Rule.pulls_unary (orNaN_total lawful.sqrt)
  · exact Rule.pulls_binary (log_total lawful)
  · exact Rule.pulls_unary fun x => log_total lawful x e
  · exact Rule.pulls_unary fun x => log_total lawful x 10.0
  · exact Rule.pulls_unary fun x => ⟨_, rfl⟩
  · exact Rule.pulls_unary (round_total lawful.ceil)
  · exact Rule.pulls_unary (round_total lawful.floor)

/-- The rules of the catalog pull as many operands as they take and then have a value. -/
theorem pullsArity (lawful : elementary.Lawful) (bindings : Table String Float) :
    Registry.PullsArity { registryOver elementary with bindings := bindings } where
  operator found := pulls_of_mem_operators lawful (mem_operators_of_find? elementary found)
  function found :=
    pulls_of_mem_functions lawful (mem_functions_of_find? elementary found).1

end Catalog

end Calculator
