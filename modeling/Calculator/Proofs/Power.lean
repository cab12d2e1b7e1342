import Calculator.Decimal.Truncate
import Calculator.Proofs.Doubles

/-!
# Powers and quotients

A power function has a value for all doubles and may report that the operands
are out of its domain, that the power is infinite at them, or that it is out
of range. The catalog sees only the reports and gives back what the function
would have given: always, except for the negative zero under a negative odd
exponent, where the sign of the infinity is lost.
-/

namespace Calculator

open Decimal (rational? IsOdd)

/-- What a power function reports beside its value. -/
inductive PowerReport where
  | domain
  | pole
  | overflow

/-- A power function on all doubles with the errors it reports. -/
structure PowerFunction where
  value : Float → Float → Float
  report? : Float → Float → Option PowerReport

namespace PowerFunction

open Arithmetic (infinity)

/-- What the standard asks of a power function where it reports an error. -/
structure Standard (pow : PowerFunction) : Prop where
  /-- A negative number has no power under an exponent between two integers. -/
  domain_iff : ∀ base exponent, pow.report? base exponent = some .domain ↔
    base.isFinite = true ∧ base < 0.0 ∧ ∃ q, rational? exponent = some q ∧ q.den ≠ 1
  isNaN_of_domain : ∀ base exponent, pow.report? base exponent = some .domain →
    (pow.value base exponent).isNaN = true
  /-- A zero has an infinite power under a negative exponent. -/
  pole_iff : ∀ base exponent, pow.report? base exponent = some .pole ↔
    (base == 0.0) = true ∧ exponent.isFinite = true ∧ exponent < 0.0
  /-- The sign of a zero passes to its odd powers. -/
  value_of_pole : ∀ base exponent, pow.report? base exponent = some .pole →
    (IsOdd exponent → pow.value base exponent = 1.0 / base) ∧
      (¬ IsOdd exponent → pow.value base exponent = infinity)
  /-- A power out of range is infinite with the sign of the exact power. -/
  value_of_overflow : ∀ base exponent, pow.report? base exponent = some .overflow →
    (base < 0.0 ∧ IsOdd exponent → pow.value base exponent = -infinity) ∧
      (¬ (base < 0.0 ∧ IsOdd exponent) → pow.value base exponent = infinity)

/-- The power function that refuses operands instead of reporting them. -/
def refusing (pow : PowerFunction) (base exponent : Float) : Except ArithmeticFault Float :=
  match pow.report? base exponent with
  | none => .ok (pow.value base exponent)
  | some .overflow => .error .overflow
  | some .domain | some .pole => .error .domain

end PowerFunction

namespace Arithmetic

open Decimal

/-! ## Quotients -/

theorem eq_notANumber {x : Float} (nan : x.isNaN = true) : x = notANumber := by
  have shape : x.toModel.unpack = .notANumber := by
    change x.toModel.unpack.isNaN = true at nan
    cases parts : x.toModel.unpack <;> rw [parts] at nan <;> first | rfl | cases nan
  rw [← ofModel_pack_unpack x, shape]
  rfl

theorem signedInfinity_bne (left right : Float) :
    signedInfinity (isNegative left != isNegative right) =
      .ofModel (.pack (.infinity (signOf left / signOf right))) := by
  unfold signOf
  cases isNegative left <;> cases isNegative right <;> rfl

/-- The quotient is the one of the doubles, also by a zero. -/
theorem divide_eq {elementary : Elementary}
    (quotients : elementary.divide = Elementary.checkedDivide) (left right : Float) : divide elementary left right = .ok (left / right) := by
  unfold divide
  cases zero : right == 0.0 with
  | false =>
      rw [if_neg Bool.false_ne_true, quotients, Elementary.checkedDivide, zero]
      rfl
  | true =>
      have quotient : left / right =
          .ofModel (.pack (.div .binary64 left.toModel.unpack right.toModel.unpack)) := rfl
      have leftZero : (left == 0.0) =
          (left.toModel.unpack.compare (.zero .positive) == some .eq) := rfl
      have leftNaN : left.isNaN = left.toModel.unpack.isNaN := rfl
      rw [if_pos rfl, signedInfinity_bne, quotient, unpack_of_beq_zero zero, leftZero, leftNaN]
      -- The right operand is a zero of either sign, so the parts of the left one decide.
      have shaped := shape left
      generalize left.toModel.unpack = parts at shaped
      cases shaped with
      | notANumber => rfl
      | infinity => cases signOf left <;> rfl
      | zero => rfl
      | finite => cases signOf left <;> rfl

/-! ## Powers -/

variable {pow : PowerFunction}

theorem isFinite_of_isOdd {x : Float} (odd : IsOdd x) : x.isFinite = true := by
  obtain ⟨n, known, -⟩ := odd
  exact (isFinite_iff x).2 ⟨n, known⟩

theorem not_lt_of_beq_zero {x : Float} (zero : (x == 0.0) = true) : ¬ x < 0.0 := by
  intro less
  change decide ((x.toModel.unpack.compare (.zero .positive) == some .lt) = true) = true at less
  rw [unpack_of_beq_zero zero] at less
  cases less

theorem eq_negativeZero_iff {x : Float} :
    x = -0.0 ↔ (x == 0.0) = true ∧ isNegative x = true := by
  constructor
  · rintro rfl
    exact ⟨rfl, rfl⟩
  · rintro ⟨zero, negative⟩
    have parts := unpack_of_beq_zero zero
    rw [signOf, negative] at parts
    rw [← ofModel_pack_unpack x, parts]
    rfl

theorem one_div_zero {x : Float} (zero : (x == 0.0) = true) :
    1.0 / x = signedInfinity (isNegative x) := by
  have quotient : 1.0 / x =
      .ofModel (.pack (.div .binary64 (1.0 : Float).toModel.unpack x.toModel.unpack)) := rfl
  rw [quotient, unpack_of_beq_zero zero, signOf]
  cases isNegative x <;> rfl

/-- Nothing is reported of the operands, or the report makes up for the value. -/
theorem power_of_report {elementary : Elementary} (standard : pow.Standard)
    (powers : elementary.power = pow.refusing) {base exponent : Float}
    (noPole : pow.report? base exponent ≠ some .pole) :
    power elementary base exponent = .ok (pow.value base exponent) := by
  unfold power
  rw [powers, PowerFunction.refusing]
  cases report : pow.report? base exponent with
  | none => rfl
  | some kind =>
      cases kind with
      | pole => exact absurd report noPole
      | domain =>
          have nonzero : (base == 0.0) = false := by
            rw [Bool.eq_false_iff]
            exact fun zero =>
              not_lt_of_beq_zero zero ((standard.domain_iff base exponent).1 report).2.1
          simp only [nonzero, eq_notANumber (standard.isNaN_of_domain base exponent report)]
          rfl
      | overflow =>
          obtain ⟨negative, positive⟩ := standard.value_of_overflow base exponent report
          by_cases signed : base < 0.0 ∧ IsOdd exponent
          · simp only [negative signed, signed.1, (isOddInteger_iff exponent).2 signed.2]
            rfl
          · rw [positive signed]
            rw [← isOddInteger_iff, ← decide_eq_true_iff (p := base < 0.0), ← Bool.and_eq_true,
              Bool.not_eq_true] at signed
            simp only [signed]
            rfl

theorem power_of_pole {elementary : Elementary} (standard : pow.Standard)
    (powers : elementary.power = pow.refusing) {base exponent : Float}
    (pole : pow.report? base exponent = some .pole) :
    power elementary base exponent = .ok infinity := by
  unfold power
  rw [powers, PowerFunction.refusing, pole]
  simp only [((standard.pole_iff base exponent).1 pole).1]
  rfl

/-- The power of a zero that a pole is reported of. -/
theorem value_of_pole (standard : pow.Standard) {base exponent : Float}
    (pole : pow.report? base exponent = some .pole) :
    (base = -0.0 ∧ IsOdd exponent → pow.value base exponent = -infinity) ∧
      (¬ (base = -0.0 ∧ IsOdd exponent) → pow.value base exponent = infinity) := by
  have zero := ((standard.pole_iff base exponent).1 pole).1
  obtain ⟨odd, notOdd⟩ := standard.value_of_pole base exponent pole
  constructor
  · rintro ⟨rfl, isOdd⟩
    exact odd isOdd
  · intro other
    by_cases isOdd : IsOdd exponent
    · have positive : isNegative base = false := by
        rw [Bool.eq_false_iff]
        exact fun negative => other ⟨eq_negativeZero_iff.2 ⟨zero, negative⟩, isOdd⟩
      rw [odd isOdd, one_div_zero zero, positive]
      rfl
    · exact notOdd isOdd

/--
The catalog has a power of every two doubles. It is that of the power function unless a negative
odd exponent stands over the negative zero, and then it has the other sign. Quotients are those of
the doubles.
-/
theorem power_standard_iff {pow : PowerFunction} (standard : pow.Standard) {elementary : Elementary}
    (powers : elementary.power = pow.refusing)
    (quotients : elementary.divide = Elementary.checkedDivide) :
    (∀ base exponent, ∃ result, power elementary base exponent = .ok result ∧
      (result = pow.value base exponent ↔
        ¬ (base = -0.0 ∧ exponent < 0.0 ∧ IsOdd exponent)) ∧
      (result ≠ pow.value base exponent →
        result = infinity ∧ pow.value base exponent = -infinity)) ∧
      ∀ left right, divide elementary left right = .ok (left / right) := by
  refine ⟨?_, divide_eq quotients⟩
  intro base exponent
  by_cases pole : pow.report? base exponent = some .pole
  · refine ⟨infinity, power_of_pole standard powers pole, ?_⟩
    have negative := ((standard.pole_iff base exponent).1 pole).2.2
    obtain ⟨lost, kept⟩ := value_of_pole standard pole
    by_cases exceptional : base = -0.0 ∧ IsOdd exponent
    · have value := lost exceptional
      have unequal : infinity ≠ pow.value base exponent := by
        rw [value]
        decide
      exact ⟨iff_of_false unequal (not_not_intro ⟨exceptional.1, negative, exceptional.2⟩),
        fun _ => ⟨rfl, value⟩⟩
    · have same : infinity = pow.value base exponent := (kept exceptional).symm
      exact ⟨iff_of_true same fun ⟨zero, _, odd⟩ => exceptional ⟨zero, odd⟩,
        fun unequal => absurd same unequal⟩
  · refine ⟨pow.value base exponent, power_of_report standard powers pole, ?_,
      fun unequal => absurd rfl unequal⟩
    refine iff_of_true rfl ?_
    rintro ⟨rfl, negative, odd⟩
    exact pole ((standard.pole_iff _ exponent).2 ⟨rfl, isFinite_of_isOdd odd, negative⟩)

/-! ## A power function -/

/-- A product of equal factors. -/
def repeated (base : Float) : Nat → Float
  | 0 => 1.0
  | count + 1 => repeated base count * base

/-- The power under a whole exponent by products, whatever is reported of it. -/
def product (base exponent : Float) : Float :=
  let magnitude := repeated base (truncate exponent).natAbs
  if exponent < 0.0 then 1.0 / magnitude else magnitude

/-- The errors of powers, the last one read off the product. -/
def reportOf (base exponent : Float) : Option PowerReport :=
  if base.isFinite && base < 0.0 && (rational? exponent).any (fun q => q.den != 1) then
    some .domain
  else if base == 0.0 && exponent.isFinite && exponent < 0.0 then some .pole
  else if base.isFinite && exponent.isFinite && (product base exponent).isInf then some .overflow
  else none

/-- A power function that is right under whole exponents and reports every error. -/
def sample : PowerFunction where
  report? := reportOf
  value base exponent :=
    match reportOf base exponent with
    | some .domain => notANumber
    | some .pole => if isOddInteger exponent then 1.0 / base else infinity
    | some .overflow => signedInfinity (base < 0.0 && isOddInteger exponent)
    | none => product base exponent

theorem reportOf_eq_domain_iff (base exponent : Float) :
    reportOf base exponent = some .domain ↔
      base.isFinite = true ∧ base < 0.0 ∧ ∃ q, rational? exponent = some q ∧ q.den ≠ 1 := by
  have condition : (base.isFinite && base < 0.0 &&
      (rational? exponent).any (fun q => q.den != 1)) = true ↔
      base.isFinite = true ∧ base < 0.0 ∧ ∃ q, rational? exponent = some q ∧ q.den ≠ 1 := by
    simp [Option.any_eq_true, and_assoc]
  rw [← condition, reportOf]
  split
  next domain => simp only [domain]
  next noDomain =>
    rw [iff_false_right noDomain]
    split
    · simp
    · split <;> simp

theorem reportOf_eq_pole_iff (base exponent : Float) :
    reportOf base exponent = some .pole ↔
      (base == 0.0) = true ∧ exponent.isFinite = true ∧ exponent < 0.0 := by
  have condition : (base == 0.0 && exponent.isFinite && exponent < 0.0) = true ↔
      (base == 0.0) = true ∧ exponent.isFinite = true ∧ exponent < 0.0 := by
    simp [and_assoc]
  rw [← condition, reportOf]
  split
  next domain =>
    simp only [Bool.and_eq_true, decide_eq_true_eq] at domain
    have nonzero : ¬ (base == 0.0) = true := fun zero => not_lt_of_beq_zero zero domain.1.2
    simp [nonzero]
  next =>
    split
    next pole => simp only [pole]
    next noPole =>
      rw [iff_false_right noPole]
      split <;> simp

theorem standard_sample : sample.Standard where
  domain_iff := reportOf_eq_domain_iff
  isNaN_of_domain base exponent report := by
    have value : sample.value base exponent = notANumber := by
      change reportOf base exponent = some .domain at report
      simp only [sample, report]
    rw [value]
    rfl
  pole_iff := reportOf_eq_pole_iff
  value_of_pole base exponent report := by
    have value : sample.value base exponent =
        if isOddInteger exponent then 1.0 / base else infinity := by
      change reportOf base exponent = some .pole at report
      simp only [sample, report]
    rw [value, ← isOddInteger_iff]
    exact ⟨fun odd => if_pos odd, fun notOdd => if_neg notOdd⟩
  value_of_overflow base exponent report := by
    have value : sample.value base exponent =
        signedInfinity (base < 0.0 && isOddInteger exponent) := by
      change reportOf base exponent = some .overflow at report
      simp only [sample, report]
    rw [value, ← isOddInteger_iff]
    constructor
    · rintro ⟨negative, odd⟩
      rw [odd, decide_eq_true negative]
      rfl
    · intro unsigned
      have positive : (base < 0.0 && isOddInteger exponent) = false := by
        simpa using unsigned
      rw [positive]
      rfl

/-- The operations of the machine with a power function of their own. -/
def machinePowers (pow : PowerFunction) : Elementary :=
  { Elementary.machine with power := pow.refusing }

theorem power_standard_iff_out_of_range :
    sample.value (-1e200) 3.0 = -infinity ∧
      (∃ result, power (machinePowers sample) (-1e200) 3.0 = .ok result ∧
        result = sample.value (-1e200) 3.0) ∧
      divide (machinePowers sample) (-1.0) (-0.0) = .ok (-1.0 / -0.0) := by
  obtain ⟨powers, quotients⟩ :=
    @power_standard_iff sample standard_sample (machinePowers sample) rfl rfl
  obtain ⟨result, done, same, -⟩ := powers (-1e200) 3.0
  refine ⟨by decide +kernel, ⟨result, done, same.2 ?_⟩, quotients (-1.0) (-0.0)⟩
  exact fun ⟨zero, _⟩ => absurd zero (by decide +kernel)

/-- The sign of the negative zero is lost under the exponent minus one. -/
theorem not_standard_of_negativeZero :
    sample.Standard ∧ sample.value (-0.0) (-1.0) = -infinity ∧
      power (machinePowers sample) (-0.0) (-1.0) = .ok infinity ∧
      (.ok infinity : Except ArithmeticFault Float) ≠ .ok (sample.value (-0.0) (-1.0)) :=
  ⟨standard_sample, by decide +kernel, by decide +kernel, by decide +kernel⟩

end Arithmetic

end Calculator
