import Calculator.Proofs.Doubles
import Calculator.Decimal.Integer

/-!
# The range of doubles

An integer is rounded to its topmost fifty-three bits. It leaves the range of
doubles when these are carried into a bit more and the exponent is already the
greatest, so from half a unit above the greatest double on.
-/

namespace Calculator.Decimal

open Float.Model (UnpackedFloat Format)
open Float.Model.UnpackedFloat

theorem mantissa_shiftRight (em : ExtendedMantissa) (count : Nat) :
    (em >>> count).mantissa = em.mantissa / 2 ^ count := by
  induction count with
  | zero => simp [HShiftRight.hShiftRight, Nat.repeat]
  | succ count ih =>
      change (em >>> count).mantissa / 2 = _
      rw [ih, Nat.div_div_eq_div_mul, Nat.pow_succ]

theorem roundBit_shiftRight (em : ExtendedMantissa) (count : Nat) :
    (em >>> (count + 1)).roundBit = (em.mantissa / 2 ^ count % 2 != 0) := by
  change ((em >>> count).mantissa % 2 != 0) = _
  rw [mantissa_shiftRight]

theorem roundedMantissa_bounds (em : ExtendedMantissa) :
    em.mantissa ≤ em.roundedMantissa ∧ em.roundedMantissa ≤ em.mantissa + 1 := by
  obtain ⟨mantissa, roundBit, stickyBit⟩ := em
  cases roundBit <;> cases stickyBit <;>
    simp only [ExtendedMantissa.roundedMantissa, ExtendedMantissa.accuracy,
      Accuracy.roundToNearestEven] <;> omega

theorem roundedMantissa_of_odd {em : ExtendedMantissa} (odd : em.mantissa % 2 = 1) :
    em.roundedMantissa = em.mantissa + em.roundBit.toNat := by
  obtain ⟨mantissa, roundBit, stickyBit⟩ := em
  change mantissa % 2 = 1 at odd
  cases roundBit <;> cases stickyBit <;>
    simp only [ExtendedMantissa.roundedMantissa, ExtendedMantissa.accuracy,
      Accuracy.roundToNearestEven, Bool.toNat] <;> first | rfl | rw [odd]; rfl

theorem isInf_unpack_iff (bits : BitVec Format.binary64.numBits) :
    (UnpackedFloat.unpack .binary64 bits).isInf = true ↔
      unpackExponent bits = -1#11 ∧ unpackMantissa bits = 0#52 := by
  unfold UnpackedFloat.unpack
  dsimp only
  split
  next greatest =>
    split
    next none => exact iff_of_true rfl ⟨greatest, none⟩
    next some => exact iff_of_false Bool.false_ne_true fun special => some special.2
  next regular =>
    refine iff_of_false ?_ fun special => regular special.1
    split
    · split <;> exact Bool.false_ne_true
    · exact Bool.false_ne_true

/-- A finite double that is packed becomes infinite when its exponent is too large. -/
theorem isInf_pack_iff (sign : Sign) (mantissa : Nat) (exponent : Int) (positive : 0 < mantissa) :
    (Float.ofModel (.pack (.finite sign mantissa exponent positive))).isInf = true ↔
      972 ≤ exponent := by
  have bias : ((Format.binary64.exponentBias : Nat) : Int) = 1023 := rfl
  change (UnpackedFloat.unpack .binary64 (UnpackedFloat.pack .binary64 _)).isInf = true ↔ _
  rw [isInf_unpack_iff]
  unfold UnpackedFloat.pack
  dsimp only
  rw [bias]
  split
  next large =>
    refine iff_of_true ?_ (by omega)
    simp [packedInfinity]
  next fits =>
    refine iff_of_false ?_ (by omega)
    rintro ⟨greatest, -⟩
    have field := congrArg BitVec.toNat greatest
    split at field
    · rw [unpackExponent_packComponents, BitVec.toNat_ofNat] at field
      change _ % 2 ^ 11 = 2047 at field
      omega
    · rw [unpackExponent_packComponents] at field
      cases field

/-- The exponent that a double with so many bits has. -/
def unitExponent (mantissa : Nat) (exponent : Int) : Int :=
  max ((mantissa.log2 : Int) + exponent - 52) (-1074)

/-- The bits down to the unit, with what is known of those below it. -/
def alignedBits (mantissa : Nat) (exponent : Int) : ExtendedMantissa :=
  ExtendedMantissa.mk mantissa false false >>> (unitExponent mantissa exponent - exponent).toNat

theorem shiftToTargetExponent_exact (mantissa : Nat) (exponent : Int) :
    shiftToTargetExponent .binary64 mantissa exponent .exact =
      (alignedBits mantissa exponent, max exponent (unitExponent mantissa exponent)) := by
  have target : Format.binary64.targetExponent (Float.Model.totalExponent mantissa exponent) =
      unitExponent mantissa exponent := by
    have bits : ((Format.binary64.mantissaBits : Nat) : Int) = 53 := rfl
    have least : Format.binary64.minExponent = -1074 := rfl
    simp only [Format.targetExponent, Float.Model.totalExponent, unitExponent, bits, least]
    omega
  have reached : exponent + ((unitExponent mantissa exponent - exponent).toNat : Int) =
      max exponent (unitExponent mantissa exponent) := by
    omega
  unfold shiftToTargetExponent shiftToExponent
  dsimp only
  rw [target, reached]
  rfl

theorem mantissa_alignedBits_lt (mantissa : Nat) (exponent : Int) :
    (alignedBits mantissa exponent).mantissa < 2 ^ 53 := by
  rw [alignedBits, mantissa_shiftRight, Nat.div_lt_iff_lt_mul (Nat.two_pow_pos _), ← Nat.pow_add]
  refine Nat.lt_log2_self.trans_le (Nat.pow_le_pow_right (by decide) ?_)
  change mantissa.log2 + 1 ≤ _
  unfold unitExponent
  omega

/-- The exponent that a double has once its bits are rounded, with the carry out of the topmost. -/
def roundedExponent (mantissa : Nat) (exponent : Int) : Int :=
  max exponent (unitExponent mantissa exponent) +
    ((alignedBits mantissa exponent).roundedMantissa / 2 ^ 53 : Nat)

/-- Rounded bits are aligned, unless they are one too many. -/
theorem aligned_of_rounded {rounded : Nat} (bounded : rounded ≤ 2 ^ 53) {exponent : Int}
    (least : -1074 ≤ exponent) :
    ((alignedBits rounded exponent).mantissa = 0 ↔ rounded = 0) ∧
      max exponent (unitExponent rounded exponent) = exponent + (rounded / 2 ^ 53 : Nat) := by
  rw [alignedBits, mantissa_shiftRight, unitExponent]
  rcases Nat.lt_or_ge rounded (2 ^ 53) with fits | carry
  · have small : rounded.log2 ≤ 52 := by
      rcases Nat.eq_zero_or_pos rounded with rfl | positive
      · decide
      · exact Nat.lt_succ_iff.1 ((Nat.log2_lt positive.ne').2 fits)
    have kept : (max ((rounded.log2 : Int) + exponent - 52) (-1074) - exponent).toNat = 0 := by
      omega
    rw [Nat.div_eq_of_lt fits, kept]
    exact ⟨by simp, by omega⟩
  · obtain rfl : rounded = 2 ^ 53 := by omega
    have shifted : (max (((2 ^ 53 : Nat).log2 : Int) + exponent - 52) (-1074) - exponent).toNat =
        1 := by
      rw [Nat.log2_two_pow]
      omega
    rw [Nat.div_self (by decide), shifted, Nat.log2_two_pow]
    exact ⟨by decide, by omega⟩

/-- A rounded double is zero or has the rounded exponent. -/
theorem roundWithAccuracy_exact (sign : Sign) (mantissa : Nat) (exponent : Int) :
    ((alignedBits mantissa exponent).roundedMantissa = 0 ∧
        roundWithAccuracy .binary64 sign mantissa exponent .exact = .zero sign) ∨
      ((alignedBits mantissa exponent).roundedMantissa ≠ 0 ∧
        ∃ bits positive, roundWithAccuracy .binary64 sign mantissa exponent .exact =
          .finite sign bits (roundedExponent mantissa exponent) positive) := by
  have bits := mantissa_alignedBits_lt mantissa exponent
  have bounds := roundedMantissa_bounds (alignedBits mantissa exponent)
  have least : -1074 ≤ max exponent (unitExponent mantissa exponent) := by
    unfold unitExponent
    omega
  unfold roundedExponent roundWithAccuracy
  -- The bits are aligned once more after they are rounded, which only takes a carry in.
  generalize (alignedBits mantissa exponent).mantissa = aligned at bits bounds
  rw [shiftToTargetExponent_exact]
  dsimp only
  rw [shiftToTargetExponent_exact]
  dsimp only
  generalize max exponent (unitExponent mantissa exponent) = e at least ⊢
  generalize (alignedBits mantissa exponent).roundedMantissa = rounded at bounds ⊢
  obtain ⟨zero_iff, exponentIs⟩ := aligned_of_rounded (by omega : rounded ≤ 2 ^ 53) least
  rw [exponentIs]
  split
  next none => exact .inl ⟨zero_iff.1 none, rfl⟩
  next nonzero =>
    exact .inr ⟨fun none => nonzero (zero_iff.2 none), _, Nat.pos_of_ne_zero nonzero, rfl⟩

theorem isInf_roundWithAccuracy_iff (sign : Sign) (mantissa : Nat) (exponent : Int) :
    (Float.ofModel (.pack
        (roundWithAccuracy .binary64 sign mantissa exponent .exact))).isInf = true ↔
      (alignedBits mantissa exponent).roundedMantissa ≠ 0 ∧
        972 ≤ roundedExponent mantissa exponent := by
  rcases roundWithAccuracy_exact sign mantissa exponent with
    ⟨none, zero⟩ | ⟨nonzero, bits, positive, finite⟩
  · rw [zero]
    exact iff_of_false (by cases sign <;> decide) fun some => some.1 none
  · rw [finite, isInf_pack_iff]
    exact (and_iff_right nonzero).symm

theorem toNat_exponentField_pack (sign : Sign) (mantissa : Nat) (exponent : Int)
    (positive : 0 < mantissa) :
    (exponentField (.ofModel (.pack (.finite sign mantissa exponent positive)))).toNat ≤
        (exponent + 1075).toNat ∨ 972 ≤ exponent := by
  have bias : ((Format.binary64.exponentBias : Nat) : Int) = 1023 := rfl
  change (unpackExponent (UnpackedFloat.pack .binary64 _)).toNat ≤ _ ∨ _
  unfold UnpackedFloat.pack
  dsimp only
  rw [bias]
  split
  next large => exact .inr (by omega)
  next fits =>
    refine .inl ?_
    split
    · rw [unpackExponent_packComponents, BitVec.toNat_ofNat]
      exact (Nat.mod_le _ _).trans (by omega)
    · rw [unpackExponent_packComponents]
      exact Nat.zero_le _

/-- Packing does not make the exponent of a double larger. -/
theorem exponent_le_of_unpack_pack {sign other : Sign} {mantissa bits : Nat}
    {exponent unit : Int} {positive : 0 < mantissa} {some : 0 < bits}
    (parts : (Float.Model.pack (.finite sign mantissa exponent positive)).unpack =
      .finite other bits unit some) : unit ≤ max exponent (-1074) := by
  generalize packed : Float.ofModel (.pack (.finite sign mantissa exponent positive)) = x
  have model : Float.Model.pack (.finite sign mantissa exponent positive) = x.toModel :=
    congrArg Float.toModel packed
  have shaped := shape x
  rw [← model, parts] at shaped
  cases shaped with
  | finite _ _ bounded =>
      by_cases least : exponentField x = 0#11
      · rw [ofBits_of_field_eq_zero least]
        exact le_max_right _ _
      · rw [(ofBits_of_field_ne_zero least).2] at bounded ⊢
        have field := toNat_exponentField_pack sign mantissa exponent positive
        rw [packed] at field
        have some : (exponentField x).toNat ≠ 0 := fun none => least (BitVec.eq_of_toNat_eq none)
        omega

/-- Half a unit above the greatest double. -/
def overflowBound : Nat := (2 ^ 54 - 1) * 2 ^ 970

theorem ofNat_of_large {n : Nat} (large : 2 ^ 53 ≤ n) :
    Float.ofNat n =
      .ofModel (.pack (roundWithAccuracy .binary64 .positive (n * 2 ^ 53) (-53) .exact)) := by
  have reachable : ¬ Int.ofNat 0 < -((2 : Int) ^ Format.binary64.exponentBits + n.log2) := by
    have limit : (2 : Int) ^ Format.binary64.exponentBits = 2048 := rfl
    rw [limit]
    change ¬ (0 : Int) < _
    omega
  change Float.ofScientific n false 0 = _
  unfold Float.ofScientific
  rw [dif_neg (by omega)]
  dsimp only
  unfold Float.Model.ofScientific UnpackedFloat.ofScientific
  simp only [Bool.false_eq_true, if_false]
  rw [dif_neg (by omega), if_neg (by decide), if_neg reachable, if_pos (by decide),
    ← Nat.shiftLeft_eq, ← Nat.mul_one (n <<< 53)]
  rfl

/-- The aligned bits of a number are its topmost fifty-three, and the next one is the round bit. -/
theorem alignedBits_of_log2 {n j : Nat} (bits : n.log2 = j + 53) :
    unitExponent (n * 2 ^ 53) (-53) = j + 1 ∧
      (alignedBits (n * 2 ^ 53) (-53)).mantissa = n / 2 ^ j / 2 ∧
      (alignedBits (n * 2 ^ 53) (-53)).roundBit = (n / 2 ^ j % 2 != 0) := by
  have nonzero : n ≠ 0 := by
    rintro rfl
    cases bits
  have topBit : (n * 2 ^ 53).log2 = j + 106 := by
    obtain ⟨low, high⟩ := (Nat.log2_eq_iff nonzero).1 bits
    refine (Nat.log2_eq_iff (by omega)).2 ⟨?_, ?_⟩
    · rw [show j + 106 = (j + 53) + 53 from rfl, Nat.pow_add 2 (j + 53)]
      exact Nat.mul_le_mul_right _ low
    · rw [show j + 106 + 1 = (j + 53 + 1) + 53 by omega, Nat.pow_add 2 (j + 53 + 1)]
      exact Nat.mul_lt_mul_of_pos_right high (by decide)
  have unit : unitExponent (n * 2 ^ 53) (-53) = j + 1 := by
    rw [unitExponent, topBit]
    omega
  have count : (unitExponent (n * 2 ^ 53) (-53) - -53).toNat = (j + 53) + 1 := by
    omega
  have divided : n * 2 ^ 53 / 2 ^ (j + 53) = n / 2 ^ j := by
    rw [Nat.pow_add, Nat.mul_div_mul_right _ _ (by decide)]
  have halved (m : Nat) : m / 2 ^ (j + 53 + 1) = m / 2 ^ (j + 53) / 2 := by
    rw [Nat.pow_succ, Nat.div_div_eq_div_mul]
  refine ⟨unit, ?_, ?_⟩
  · rw [alignedBits, count, mantissa_shiftRight, halved]
    exact congrArg (· / 2) divided
  · rw [alignedBits, count, roundBit_shiftRight]
    exact congrArg (· % 2 != 0) divided

/-- Fifty-four bits are rounded to one more bit than fifty-three when all of them are set. -/
theorem carry_iff {q rounded : Nat} (low : 2 ^ 53 ≤ q) (high : q < 2 ^ 54)
    (above : q / 2 ≤ rounded) (below : rounded ≤ q / 2 + 1)
    (odd : q / 2 % 2 = 1 → rounded = q / 2 + (q % 2 != 0).toNat) :
    2 ^ 53 ≤ rounded ↔ 2 ^ 54 - 1 ≤ q := by
  have bit : (q % 2 != 0).toNat = q % 2 := by
    rcases Nat.mod_two_eq_zero_or_one q with even | odd
    · rw [even]
      rfl
    · rw [odd]
      rfl
  rw [bit] at odd
  constructor
  · intro carried
    have last := odd (by omega)
    omega
  · intro full
    have last := odd (by omega)
    omega

theorem lt_scaled {n j k : Nat} (bits : n < 2 ^ (j + 54)) (small : j < k) :
    n < (2 ^ 54 - 1) * 2 ^ k := calc
  n < 2 ^ (j + 54) := bits
  _ ≤ 2 ^ (53 + k) := Nat.pow_le_pow_right (by decide) (by omega)
  _ = 2 ^ 53 * 2 ^ k := Nat.pow_add 2 53 k
  _ ≤ (2 ^ 54 - 1) * 2 ^ k := Nat.mul_le_mul_right _ (by decide)

theorem scaled_le {n j k : Nat} (bits : 2 ^ (j + 53) ≤ n) (large : k < j) :
    (2 ^ 54 - 1) * 2 ^ k ≤ n := calc
  (2 ^ 54 - 1) * 2 ^ k ≤ 2 ^ 54 * 2 ^ k := Nat.mul_le_mul_right _ (by decide)
  _ = 2 ^ (54 + k) := (Nat.pow_add 2 54 k).symm
  _ ≤ 2 ^ (j + 53) := Nat.pow_le_pow_right (by decide) (by omega)
  _ ≤ n := bits

theorem le_scaled (k : Nat) : 2 ^ 53 ≤ (2 ^ 54 - 1) * 2 ^ k :=
  (by decide : 2 ^ 53 ≤ 2 ^ 54 - 1).trans (Nat.le_mul_of_pos_right _ (Nat.two_pow_pos k))

theorem isInf_ofNat_of_large {n : Nat} (large : 2 ^ 53 ≤ n) :
    (Float.ofNat n).isInf = true ↔ overflowBound ≤ n := by
  have atLeast : 53 ≤ n.log2 := (Nat.le_log2 (by omega)).2 large
  obtain ⟨j, bits⟩ : ∃ j, n.log2 = j + 53 := ⟨n.log2 - 53, by omega⟩
  obtain ⟨low, high⟩ := (Nat.log2_eq_iff (by omega)).1 bits
  obtain ⟨unit, mantissa, roundBit⟩ := alignedBits_of_log2 bits
  obtain ⟨above, below⟩ := roundedMantissa_bounds (alignedBits (n * 2 ^ 53) (-53))
  have odd := @roundedMantissa_of_odd (alignedBits (n * 2 ^ 53) (-53))
  have lowest : 2 ^ 53 ≤ n / 2 ^ j := by
    rw [Nat.le_div_iff_mul_le (Nat.two_pow_pos j), ← Nat.pow_add, Nat.add_comm]
    exact low
  have highest : n / 2 ^ j < 2 ^ 54 := by
    rw [Nat.div_lt_iff_lt_mul (Nat.two_pow_pos j), ← Nat.pow_add, Nat.add_comm]
    exact high
  rw [mantissa] at above below odd
  rw [roundBit] at odd
  have carry := carry_iff lowest highest above below odd
  rw [ofNat_of_large large, isInf_roundWithAccuracy_iff, roundedExponent, unit]
  -- Below the greatest exponent a carry still fits, above it nothing does; there it decides.
  rcases Nat.lt_trichotomy j 970 with small | same | larger
  · exact iff_of_false (by omega) (Nat.not_le.2 (lt_scaled high small))
  · have bound : overflowBound ≤ n ↔ 2 ^ 54 - 1 ≤ n / 2 ^ j := by
      rw [overflowBound, ← same, Nat.le_div_iff_mul_le (Nat.two_pow_pos j)]
    rw [bound, ← carry]
    omega
  · exact iff_of_true ⟨by omega, by omega⟩ (scaled_le low larger)

/-- A double of few bits has a small exponent. -/
theorem roundedExponent_le {mantissa bits : Nat} (bounded : mantissa < 2 ^ bits) (exponent : Int) :
    roundedExponent mantissa exponent ≤ max exponent (max (bits + exponent - 52) (-1074)) + 1 := by
  have few : mantissa.log2 ≤ bits := by
    rcases Nat.eq_zero_or_pos mantissa with rfl | positive
    · exact Nat.zero_le _
    · exact ((Nat.log2_lt positive.ne').2 bounded).le
  have aligned := mantissa_alignedBits_lt mantissa exponent
  have rounded := roundedMantissa_bounds (alignedBits mantissa exponent)
  unfold roundedExponent unitExponent
  omega

/-- The double is not infinite, and if it has bits, its exponent is at most two. -/
structure IsSmall (x : Float) : Prop where
  notInfinite : x.isInf = false
  exponent_le : ∀ {sign mantissa exponent positive},
    x.toModel.unpack = .finite sign mantissa exponent positive → exponent ≤ 2

theorem isSmall_ofModel_pack (sign : Sign) {mantissa bits : Nat} (bounded : mantissa < 2 ^ bits)
    {exponent : Int} (low : bits + exponent ≤ 53) (negative : exponent ≤ 0) :
    IsSmall (.ofModel (.pack (roundWithAccuracy .binary64 sign mantissa exponent .exact))) := by
  have bound := roundedExponent_le bounded exponent
  rcases roundWithAccuracy_exact sign mantissa exponent with
    ⟨-, zero⟩ | ⟨-, bits, positive, finite⟩
  · rw [zero]
    cases sign
    · exact ⟨rfl, fun shape => by cases shape⟩
    · exact ⟨rfl, fun shape => by cases shape⟩
  · rw [finite]
    refine ⟨?_, fun parts => ?_⟩
    · rw [Bool.eq_false_iff, ne_eq, isInf_pack_iff]
      omega
    · have unit := exponent_le_of_unpack_pack parts
      omega

theorem isSmall_toFloat {n : Nat} (small : n < 2 ^ 53) : IsSmall n.toUInt64.toFloat := by
  have same : n.toUInt64.toNat = n := Nat.mod_eq_of_lt (small.trans (by decide))
  have converted : n.toUInt64.toFloat =
      .ofModel (.pack (UnpackedFloat.normalize .binary64 n.toUInt64.toNat 0 .positive)) := rfl
  rw [converted, same]
  unfold UnpackedFloat.normalize
  rcases Nat.eq_zero_or_pos n with rfl | positive
  · exact ⟨rfl, fun shape => by cases shape⟩
  · have order : compare (n : Int) 0 = .gt := by
      rw [Int.compare_eq_gt]
      omega
    rw [order]
    unfold UnpackedFloat.round decreaseExponent
    dsimp only
    generalize (0 - Format.binary64.targetExponent _).toNat = count
    have bounded : n <<< count < 2 ^ (53 + count) := by
      rw [Nat.shiftLeft_eq, Nat.pow_add]
      exact Nat.mul_lt_mul_of_pos_right small (Nat.two_pow_pos count)
    exact isSmall_ofModel_pack .positive bounded (by omega) (by omega)

theorem not_isInf_mul_one {x : Float} (small : IsSmall x) :
    (x * Float.ofBits 0x3FF0000000000000).isInf = false := by
  have one : (Float.ofBits 0x3FF0000000000000).toModel.unpack =
      .finite .positive (2 ^ 52) (-52) (by decide) := rfl
  have product : x * Float.ofBits 0x3FF0000000000000 = .ofModel (.pack (.mul .binary64
      x.toModel.unpack (Float.ofBits 0x3FF0000000000000).toModel.unpack)) := rfl
  have finite : x.toModel.unpack.isInf = false := small.notInfinite
  have exponent := @IsSmall.exponent_le x small
  have shaped := shape x
  rw [product, one]
  generalize x.toModel.unpack = parts at finite exponent shaped
  cases shaped with
  | notANumber => rfl
  | infinity => cases finite
  | zero => cases signOf x <;> rfl
  | finite positive mantissa_lt _ =>
      have low := exponent rfl
      have bounded : (Binary.ofBits x.toBits).mantissa * 2 ^ 52 < 2 ^ (53 + 52) := by
        rw [Nat.pow_add]
        exact Nat.mul_lt_mul_of_pos_right mantissa_lt (by decide)
      have bound := roundedExponent_le bounded ((Binary.ofBits x.toBits).exponent + -52)
      unfold UnpackedFloat.mul
      rw [Bool.eq_false_iff, ne_eq, isInf_roundWithAccuracy_iff]
      rintro ⟨-, large⟩
      omega

theorem not_isInf_ofNat_of_small {n : Nat} (small : n < 2 ^ 53) :
    (Float.ofNat n).isInf = false := by
  have product : Float.ofNat n = n.toUInt64.toFloat * Float.ofBits 0x3FF0000000000000 := by
    change Float.ofScientific n false 0 = _
    unfold Float.ofScientific
    rw [dif_pos ⟨small, by decide⟩]
    rfl
  rw [product]
  exact not_isInf_mul_one (isSmall_toFloat small)

theorem isInf_ofNat_iff (n : Nat) : (Float.ofNat n).isInf = true ↔ overflowBound ≤ n := by
  rcases Nat.lt_or_ge n (2 ^ 53) with small | large
  · rw [not_isInf_ofNat_of_small small]
    refine iff_of_false Bool.false_ne_true ?_
    exact Nat.not_le.2 (small.trans_le (le_scaled 970))
  · exact isInf_ofNat_of_large large

theorem isInf_neg (x : Float) : (-x).isInf = x.isInf := by
  have negated : -x = .ofModel (.pack x.toModel.unpack.neg) := rfl
  have shaped := shape x
  rw [negated]
  change _ = x.toModel.unpack.isInf
  generalize x.toModel.unpack = parts at shaped
  cases shaped with
  | notANumber => rfl
  | infinity => cases signOf x <;> rfl
  | zero => cases signOf x <;> rfl
  | finite positive _ exponent_le =>
      change (Float.ofModel (.pack (.finite _ _ _ positive))).isInf = false
      rw [Bool.eq_false_iff, ne_eq, isInf_pack_iff]
      omega

theorem isInf_ofInt_iff (n : Int) : (Float.ofInt n).isInf = true ↔ overflowBound ≤ n.natAbs := by
  cases n with
  | ofNat n => exact isInf_ofNat_iff n
  | negSucc n =>
      change (-Float.ofNat (n + 1)).isInf = true ↔ _
      rw [isInf_neg]
      exact isInf_ofNat_iff (n + 1)

/-- An integer has a nearest double when it is less than half a unit above the greatest one. -/
theorem double?_eq_none_iff (n : Int) : double? n = none ↔ overflowBound ≤ n.natAbs := by
  rw [← isInf_ofInt_iff, double?]
  cases (Float.ofInt n).isInf <;> simp

/-- The greatest double. -/
def greatest : Nat := (2 ^ 53 - 1) * 2 ^ 971

theorem doubled_lt (k : Nat) : (2 ^ 53 - 1) * 2 ^ (k + 1) < (2 ^ 54 - 1) * 2 ^ k := calc
  (2 ^ 53 - 1) * 2 ^ (k + 1) = (2 ^ 53 - 1) * 2 * 2 ^ k := by
    rw [Nat.pow_succ' (n := k), Nat.mul_assoc]
  _ < (2 ^ 54 - 1) * 2 ^ k := Nat.mul_lt_mul_of_pos_right (by decide) (Nat.two_pow_pos k)

theorem greatest_lt_overflowBound : greatest < overflowBound := by
  rw [greatest, overflowBound, show 971 = 970 + 1 from rfl]
  exact doubled_lt 970

theorem Magnitude.abs_le {binary : Binary} {q : ℚ} (magnitude : Magnitude binary q) :
    |q| ≤ greatest := by
  have mantissa : (binary.mantissa : ℚ) ≤ ((2 ^ 53 - 1 : ℕ) : ℚ) :=
    Nat.cast_le.2 (Nat.le_sub_one_of_lt magnitude.mantissa_lt)
  have unit : (2 : ℚ) ^ binary.exponent ≤ 2 ^ (971 : ℤ) :=
    zpow_le_zpow_right₀ one_le_two magnitude.exponent_le
  rw [magnitude.value, greatest, Nat.cast_mul, Nat.cast_pow, Nat.cast_ofNat]
  exact mul_le_mul mantissa unit (zpow_pos two_pos _).le (Nat.cast_nonneg _)

/-- An integer no farther from zero than the greatest double has a double. -/
theorem exists_double?_of_le {n : Int} (small : n.natAbs ≤ greatest) :
    ∃ x, double? n = some x := by
  cases converted : double? n with
  | some x => exact ⟨x, rfl⟩
  | none =>
      have large := (double?_eq_none_iff n).1 converted
      exact absurd (small.trans_lt greatest_lt_overflowBound) (Nat.not_lt.2 large)

theorem natAbs_ceil_le {q : ℚ} {bound : Nat} (bounded : |q| ≤ bound) : ⌈q⌉.natAbs ≤ bound := by
  obtain ⟨low, high⟩ := abs_le.1 bounded
  have above : ⌈q⌉ ≤ (bound : ℤ) := Int.ceil_le.2 (by exact_mod_cast high)
  have below : (-bound : ℤ) ≤ ⌈q⌉ := by
    have atLeast := low.trans (Int.le_ceil q)
    exact_mod_cast atLeast
  omega

theorem natAbs_floor_le {q : ℚ} {bound : Nat} (bounded : |q| ≤ bound) : ⌊q⌋.natAbs ≤ bound := by
  have opposite := natAbs_ceil_le (q := -q) (by rwa [abs_neg])
  rwa [Int.ceil_neg, Int.natAbs_neg] at opposite

end Calculator.Decimal
