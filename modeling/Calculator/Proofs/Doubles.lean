import Calculator.Catalog.Arithmetic
import Calculator.Proofs.Rounding
import Mathlib

/-!
# Doubles and their values

The bits of a double, its parts and its exact value are three readings of one
number. What the bits hold is stated once for each of the four shapes that the
parts can have; values and signs are read off from there.
-/

namespace Calculator.Decimal

open Float.Model (UnpackedFloat Format)
open Float.Model.UnpackedFloat

variable {x : Float}

/-! ## Bits -/

/-- The exponent field of a double. -/
def exponentField (x : Float) : BitVec 11 :=
  @unpackExponent Format.binary64 x.toModel.toBits.toBitVec

/-- The mantissa field of a double. -/
def mantissaField (x : Float) : BitVec 52 :=
  @unpackMantissa Format.binary64 x.toModel.toBits.toBitVec

theorem toNat_exponentField (x : Float) :
    ((x.toBits >>> 52) &&& 0x7FF).toNat = (exponentField x).toNat := by
  rw [UInt64.toNat_and, UInt64.toNat_shiftRight, exponentField]
  simp only [unpackExponent, BitVec.toNat_cast, BitVec.extractLsb_toNat, UInt64.toNat_toBitVec]
  exact Nat.and_two_pow_sub_one_eq_mod _ 11

theorem toNat_mantissaField (x : Float) :
    (x.toBits &&& 0xFFFFFFFFFFFFF).toNat = (mantissaField x).toNat := by
  rw [UInt64.toNat_and, mantissaField]
  simp only [unpackMantissa, BitVec.toNat_cast, BitVec.extractLsb_toNat, UInt64.toNat_toBitVec]
  exact Nat.and_two_pow_sub_one_eq_mod _ 52

def signOf (x : Float) : Sign :=
  if Arithmetic.isNegative x then .negative else .positive

theorem ofBitVec_unpackSign (x : Float) :
    Sign.ofBitVec (@unpackSign .binary64 x.toModel.toBits.toBitVec) = signOf x := by
  have small : x.toBits.toNat >>> 63 < 2 := by
    rw [Nat.shiftRight_eq_div_pow]
    have := x.toBits.toNat_lt
    omega
  have field : (@unpackSign Format.binary64 x.toModel.toBits.toBitVec).toNat =
      x.toBits.toNat >>> 63 := by
    simp only [unpackSign, BitVec.toNat_cast, BitVec.extractLsb_toNat, UInt64.toNat_toBitVec]
    exact Nat.mod_eq_of_lt small
  have bit : Arithmetic.isNegative x = true ↔ x.toBits.toNat >>> 63 = 1 := by
    rw [Arithmetic.isNegative, beq_iff_eq, ← UInt64.toNat_inj, UInt64.toNat_shiftRight]
    exact Iff.rfl
  have zero : @unpackSign Format.binary64 x.toModel.toBits.toBitVec = 0#1 ↔
      x.toBits.toNat >>> 63 = 0 := by
    rw [← BitVec.toNat_inj, field]
    exact Iff.rfl
  rw [Sign.ofBitVec, signOf]
  by_cases negative : x.toBits.toNat >>> 63 = 1
  · have nonzero : ¬ x.toBits.toNat >>> 63 = 0 := by omega
    rw [if_pos (bit.2 negative), if_neg (nonzero ∘ zero.1)]
  · rw [if_neg (fun set => negative (bit.1 set)), if_pos (zero.2 (by omega))]

/-- A double in its parts, with what its bits hold of them. -/
inductive Shape (x : Float) : UnpackedFloat → Prop where
  | notANumber (special : (Binary.ofBits x.toBits).exponent = 972) : Shape x .notANumber
  | infinity (special : (Binary.ofBits x.toBits).exponent = 972) : Shape x (.infinity (signOf x))
  | zero (none : (Binary.ofBits x.toBits).mantissa = 0)
      (least : (Binary.ofBits x.toBits).exponent = -1074) : Shape x (.zero (signOf x))
  | finite (positive : 0 < (Binary.ofBits x.toBits).mantissa)
      (mantissa_lt : (Binary.ofBits x.toBits).mantissa < 2 ^ 53)
      (exponent_le : (Binary.ofBits x.toBits).exponent ≤ 971) :
      Shape x (.finite (signOf x) (Binary.ofBits x.toBits).mantissa
        (Binary.ofBits x.toBits).exponent positive)

theorem ofBits_of_field_eq_zero (field : exponentField x = 0#11) :
    Binary.ofBits x.toBits = ⟨(mantissaField x).toNat, -1074, false⟩ := by
  have biased : ((x.toBits >>> 52) &&& 0x7FF).toNat = 0 := by
    rw [toNat_exponentField, field]
    rfl
  rw [← toNat_mantissaField]
  exact if_pos biased

theorem ofBits_of_field_ne_zero (field : exponentField x ≠ 0#11) :
    (Binary.ofBits x.toBits).mantissa = 2 ^ 52 + (mantissaField x).toNat ∧
      (Binary.ofBits x.toBits).exponent = (exponentField x).toNat - 1075 := by
  have biased : ((x.toBits >>> 52) &&& 0x7FF).toNat ≠ 0 := by
    rw [toNat_exponentField]
    exact fun none => field (BitVec.eq_of_toNat_eq none)
  have decoded : Binary.ofBits x.toBits = ⟨_, _, _⟩ := if_neg biased
  rw [decoded, ← toNat_mantissaField, ← toNat_exponentField]
  exact ⟨rfl, rfl⟩

theorem Shape.of_fields {mantissa : Nat} {exponent : Int} {positive : 0 < mantissa}
    (mantissaIs : (Binary.ofBits x.toBits).mantissa = mantissa)
    (exponentIs : (Binary.ofBits x.toBits).exponent = exponent) (mantissa_lt : mantissa < 2 ^ 53)
    (exponent_le : exponent ≤ 971) : Shape x (.finite (signOf x) mantissa exponent positive) := by
  subst mantissaIs exponentIs
  exact .finite positive mantissa_lt exponent_le

theorem shape (x : Float) : Shape x x.toModel.unpack := by
  have fraction := (mantissaField x).isLt
  unfold Float.Model.unpack UnpackedFloat.unpack
  dsimp only
  rw [ofBitVec_unpackSign]
  split
  next special =>
    have exponent : (Binary.ofBits x.toBits).exponent = 972 := by
      have field : exponentField x = -1#11 := special
      rw [(ofBits_of_field_ne_zero (by rw [field]; decide)).2, field]
      rfl
    split
    · exact .infinity exponent
    · exact .notANumber exponent
  next regular =>
    split
    next least =>
      have decoded := ofBits_of_field_eq_zero least
      split
      next none =>
        have empty : mantissaField x = 0#52 := none
        exact .zero (by rw [decoded, empty]; rfl) (by rw [decoded])
      next some =>
        have small : (mantissaField x).toNat < 2 ^ 53 := by omega
        refine .of_fields (by rw [decoded]; rfl) ?_ small ?_
        · rw [decoded]
          change -1074 = ((exponentField x).toNat : Int) - 1075 + 1
          rw [show exponentField x = 0#11 from least]
          rfl
        · change ((exponentField x).toNat : Int) - 1075 + 1 ≤ 971
          rw [show exponentField x = 0#11 from least]
          decide
    next normal =>
      obtain ⟨mantissa, exponent⟩ := ofBits_of_field_ne_zero normal
      have implicit : (1#1 ++ mantissaField x).toNat = 2 ^ 52 + (mantissaField x).toNat := by
        rw [BitVec.toNat_append, ← Nat.shiftLeft_add_eq_or_of_lt fraction]
        rfl
      have notGreatest : (exponentField x).toNat ≠ 2047 :=
        fun greatest => regular (BitVec.eq_of_toNat_eq greatest)
      have bound := (exponentField x).isLt
      refine .of_fields (mantissa.trans implicit.symm) exponent ?_ ?_
      · change (1#1 ++ mantissaField x).toNat < _
        rw [implicit]
        omega
      · change ((exponentField x).toNat : Int) - 1075 ≤ 971
        omega

/-! ## Values -/

/-- The value that parts stand for, if they are those of a finite double. -/
def valueOf? : UnpackedFloat → Option ℚ
  | .zero _ => some 0
  | .finite sign mantissa exponent _ => some (sign.apply mantissa * 2 ^ exponent)
  | _ => none

/-- The exact value of a finite double. -/
def rational? (x : Float) : Option ℚ :=
  valueOf? x.toModel.unpack

theorem isFinite_iff (x : Float) : x.isFinite = true ↔ ∃ q, rational? x = some q := by
  change x.toModel.unpack.isFinite = true ↔ ∃ q, valueOf? x.toModel.unpack = some q
  cases x.toModel.unpack with
  | notANumber => exact iff_of_false Bool.false_ne_true (by rintro ⟨q, ⟨⟩⟩)
  | infinity sign => exact iff_of_false Bool.false_ne_true (by rintro ⟨q, ⟨⟩⟩)
  | zero sign => exact iff_of_true rfl ⟨0, rfl⟩
  | finite sign mantissa exponent positive => exact iff_of_true rfl ⟨_, rfl⟩

/-- A double has a value, or it is infinite, or it is no number. -/
inductive Kind (x : Float) : Prop where
  | notANumber (nan : x.isNaN = true) (notInfinite : x.isInf = false) (none : rational? x = none)
  | infinite (number : x.isNaN = false) (infinite : x.isInf = true) (none : rational? x = none)
  | finite {q : ℚ} (number : x.isNaN = false) (notInfinite : x.isInf = false)
      (known : rational? x = some q)

theorem kind (x : Float) : Kind x := by
  have nan : x.isNaN = x.toModel.unpack.isNaN := rfl
  have inf : x.isInf = x.toModel.unpack.isInf := rfl
  have value : rational? x = valueOf? x.toModel.unpack := rfl
  cases parts : x.toModel.unpack with
  | notANumber => rw [parts] at nan inf value; exact .notANumber nan inf value
  | infinity sign => rw [parts] at nan inf value; exact .infinite nan inf value
  | zero sign => rw [parts] at nan inf value; exact .finite nan inf value
  | finite sign mantissa exponent positive =>
      rw [parts] at nan inf value
      exact .finite nan inf value

/-- The magnitude of a double is less than `2 ^ 53` units of at most `2 ^ 971`. -/
structure Magnitude (binary : Binary) (q : ℚ) : Prop where
  value : |q| = binary.mantissa * 2 ^ binary.exponent
  mantissa_lt : binary.mantissa < 2 ^ 53
  exponent_le : binary.exponent ≤ 971

theorem abs_apply (sign : Sign) (n : Nat) : |((sign.apply n : Int) : ℚ)| = n := by
  cases sign <;> simp [Sign.apply]

theorem magnitude_of_rational? {q : ℚ} (known : rational? x = some q) :
    Magnitude (Binary.ofBits x.toBits) q := by
  have shaped := shape x
  unfold rational? at known
  generalize x.toModel.unpack = parts at known shaped
  cases shaped with
  | notANumber => cases known
  | infinity => cases known
  | zero none least =>
      cases known
      exact ⟨by rw [none]; simp, by rw [none]; decide, by rw [least]; decide⟩
  | finite positive mantissa_lt exponent_le =>
      refine ⟨?_, mantissa_lt, exponent_le⟩
      rw [← Option.some.inj known, abs_mul, abs_apply, abs_of_pos (zpow_pos two_pos _)]

/-- The double is an odd integer. -/
def IsOdd (x : Float) : Prop :=
  ∃ n : ℤ, rational? x = some (n : ℚ) ∧ Odd n

theorem exists_odd_iff (mantissa : Nat) (exponent : Int) :
    (∃ n : ℤ, (mantissa : ℚ) * 2 ^ exponent = n ∧ Odd n) ↔
      exponent ≤ 0 ∧ mantissa % 2 ^ (-exponent).toNat = 0 ∧
        mantissa / 2 ^ (-exponent).toNat % 2 = 1 := by
  have two : (2 : ℚ) ≠ 0 := by norm_num
  rcases le_or_gt exponent 0 with small | large
  · obtain ⟨k, rfl⟩ : ∃ k : ℕ, exponent = -k := ⟨(-exponent).toNat, by omega⟩
    have whole (n : ℤ) : (mantissa : ℚ) * 2 ^ (-(k : ℤ)) = n ↔ (mantissa : ℤ) = n * 2 ^ k := by
      rw [zpow_neg, zpow_natCast, mul_inv_eq_iff_eq_mul₀ (pow_ne_zero k two)]
      norm_cast
    simp only [whole, neg_neg, Int.toNat_natCast]
    have power : (0 : ℤ) < 2 ^ k := by positivity
    constructor
    · rintro ⟨n, same, odd⟩
      have divides : (mantissa : ℤ) % 2 ^ k = 0 := by rw [same, Int.mul_emod_left]
      have quotient : (mantissa : ℤ) / 2 ^ k = n := by rw [same, Int.mul_ediv_cancel _ power.ne']
      refine ⟨small, by exact_mod_cast divides, ?_⟩
      rw [← quotient, Int.odd_iff] at odd
      exact_mod_cast odd
    · rintro ⟨-, divides, odd⟩
      have exactly : mantissa / 2 ^ k * 2 ^ k = mantissa :=
        Nat.div_mul_cancel (Nat.dvd_of_mod_eq_zero divides)
      refine ⟨(mantissa / 2 ^ k : ℕ), by exact_mod_cast exactly.symm, ?_⟩
      exact_mod_cast Nat.odd_iff.2 odd
  · obtain ⟨k, rfl⟩ : ∃ k : ℕ, exponent = (k + 1 : ℕ) := ⟨(exponent - 1).toNat, by omega⟩
    constructor
    · rintro ⟨n, same, odd⟩
      rw [zpow_natCast] at same
      have even : n = mantissa * 2 ^ (k + 1) := by exact_mod_cast same.symm
      rw [even, pow_succ, ← mul_assoc] at odd
      exact absurd odd (Int.not_odd_iff_even.2 (even_two.mul_left _))
    · rintro ⟨small, -⟩
      omega

theorem isOddInteger_iff (x : Float) : Arithmetic.isOddInteger x = true ↔ IsOdd x := by
  have decoded : Arithmetic.isOddInteger x = true ↔ ∃ n : ℤ,
      ((Binary.ofBits x.toBits).mantissa : ℚ) * 2 ^ (Binary.ofBits x.toBits).exponent = n ∧
        Odd n := by
    rw [exists_odd_iff]
    simp [Arithmetic.isOddInteger, twoTo, and_assoc]
  rw [decoded, IsOdd]
  cases known : rational? x with
  | some q =>
      rw [← (magnitude_of_rational? known).value]
      constructor
      · rintro ⟨n, same, odd⟩
        rcases (abs_eq (by rw [← same]; exact abs_nonneg q)).1 same with positive | negative
        · exact ⟨n, congrArg some positive, odd⟩
        · exact ⟨-n, congrArg some (by rw [negative]; simp), odd.neg⟩
      · rintro ⟨n, same, odd⟩
        exact ⟨|n|, by rw [Option.some.inj same]; simp, odd_abs.2 odd⟩
  | none =>
      have special : (Binary.ofBits x.toBits).exponent = 972 := by
        have shaped := shape x
        unfold rational? at known
        generalize x.toModel.unpack = parts at known shaped
        cases shaped with
        | notANumber special => exact special
        | infinity special => exact special
        | zero => cases known
        | finite => cases known
      rw [exists_odd_iff, special]
      simp

/-! ## Parts -/

/-- A double is known from its parts. -/
theorem ofModel_pack_unpack (x : Float) : Float.ofModel (.pack x.toModel.unpack) = x :=
  Float.toBits_inj.1 (UInt64.toBitVec_inj.1 (pack_unpack_of_valid x.toModel.valid))

theorem unpack_of_beq_zero (zero : (x == 0.0) = true) : x.toModel.unpack = .zero (signOf x) := by
  have literal : (0.0 : Float).toModel.unpack = .zero .positive := by rfl
  have compared : (x.toModel.unpack.compare (0.0 : Float).toModel.unpack == some .eq) = true := zero
  rw [literal] at compared
  have shaped := shape x
  generalize x.toModel.unpack = parts at compared shaped
  cases shaped with
  | notANumber => cases compared
  | infinity => cases sign : signOf x <;> rw [sign] at compared <;> cases compared
  | zero => rfl
  | finite => cases sign : signOf x <;> rw [sign] at compared <;> cases compared

end Calculator.Decimal
