import Calculator.Decimal.Numeral

/-!
# Numbers are read as numbers

The double nearest to a written number may be zero or infinite but is always
a number. Rounding gives zero or a finite double, packing keeps what is no
number apart from what is one, and no product or quotient with a finite
factor other than zero leaves the numbers.
-/

namespace Calculator.Decimal

open Float.Model (UnpackedFloat Format)

/-! ## Choices -/

theorem isNaN_dite {p : Prop} [Decidable p] {x : p → UnpackedFloat} {y : ¬ p → UnpackedFloat}
    (whenTrue : ∀ h, (x h).isNaN = false) (whenFalse : ∀ h, (y h).isNaN = false) :
    (dite p x y).isNaN = false := by
  by_cases h : p
  · rw [dif_pos h]
    exact whenTrue h
  · rw [dif_neg h]
    exact whenFalse h

theorem isNaN_ite {p : Prop} [Decidable p] {x y : UnpackedFloat} (whenTrue : x.isNaN = false)
    (whenFalse : y.isNaN = false) : (if p then x else y).isNaN = false :=
  isNaN_dite (fun _ => whenTrue) fun _ => whenFalse

/-! ## Bits -/

theorem isNaN_unpack {format : Format} (bits : BitVec format.numBits)
    (number : UnpackedFloat.unpackExponent bits = (-1#_) →
      UnpackedFloat.unpackMantissa bits = 0#_) :
    (UnpackedFloat.unpack format bits).isNaN = false := by
  unfold UnpackedFloat.unpack
  dsimp only
  by_cases special : UnpackedFloat.unpackExponent bits = (-1#_)
  · rw [if_pos special, if_pos (number special)]
    rfl
  · rw [if_neg special]
    exact isNaN_ite (isNaN_dite (fun _ => rfl) fun _ => rfl) rfl

theorem isNaN_unpack_pack {format : Format} {x : UnpackedFloat} (number : x.isNaN = false) :
    (UnpackedFloat.unpack format (UnpackedFloat.pack format x)).isNaN = false := by
  apply isNaN_unpack
  fun_cases UnpackedFloat.pack with
  | case1 => cases number
  | case2 sign => simp [UnpackedFloat.packedInfinity]
  | case3 sign => simp [UnpackedFloat.packedZero]
  | case4 sign mantissa exponent positive biased overflow => simp [UnpackedFloat.packedInfinity]
  | case5 sign mantissa exponent positive bits biased fits normal =>
      -- A biased exponent below the greatest one does not mark a special value.
      have below : biased < 2 ^ format.exponentBits - 1 := by omega
      intro special
      have same := congrArg BitVec.toNat special
      rw [UnpackedFloat.unpackExponent_packComponents, BitVec.toNat_ofNat,
        Nat.mod_eq_of_lt (by omega), BitVec.neg_one_eq_allOnes, BitVec.toNat_allOnes] at same
      omega
  | case6 sign mantissa exponent positive bits biased fits subnormal =>
      simp [Nat.pos_iff_ne_zero.1 format.he]

/-! ## Doubles -/

/-- The double is finite and not zero. -/
def isProper : UnpackedFloat → Bool
  | .finite .. => true
  | _ => false

theorem isNaN_ofModel_pack {x : UnpackedFloat} (number : x.isNaN = false) :
    (Float.ofModel (.pack x)).isNaN = false :=
  isNaN_unpack_pack number

theorem isNaN_roundWithAccuracy (format : Format) (sign : UnpackedFloat.Sign) (mantissa : Nat)
    (exponent : Int) (accuracy : UnpackedFloat.Accuracy) :
    (UnpackedFloat.roundWithAccuracy format sign mantissa exponent accuracy).isNaN = false := by
  rw [UnpackedFloat.roundWithAccuracy]
  exact isNaN_dite (fun _ => rfl) fun _ => rfl

theorem isNaN_mul {format : Format} {x y : UnpackedFloat} (number : x.isNaN = false)
    (proper : isProper y = true) : (UnpackedFloat.mul format x y).isNaN = false := by
  cases y with
  | finite sign mantissa exponent positive =>
      cases x with
      | notANumber => cases number
      | infinity => rfl
      | zero => rfl
      | finite => exact isNaN_roundWithAccuracy ..
  | _ => cases proper

theorem isNaN_div {format : Format} {x y : UnpackedFloat} (number : x.isNaN = false)
    (proper : isProper y = true) : (UnpackedFloat.div format x y).isNaN = false := by
  cases y with
  | finite sign mantissa exponent positive =>
      cases x with
      | notANumber => cases number
      | infinity => rfl
      | zero => rfl
      | finite => exact isNaN_roundWithAccuracy ..
  | _ => cases proper

theorem isNaN_ofNat (format : Format) (n : Nat) : (UnpackedFloat.ofNat format n).isNaN = false := by
  unfold UnpackedFloat.ofNat UnpackedFloat.ofInt UnpackedFloat.normalize
  split
  · exact isNaN_roundWithAccuracy ..
  · rfl
  · exact isNaN_roundWithAccuracy ..

theorem isProper_powerOfTen (e : Fin 23) :
    isProper Float.exactlyRepresentablePowersOfTen[e].toModel.unpack = true := by
  revert e
  decide +kernel

theorem isNaN_ofScientific_model (format : Format) (digits : Nat) (exponent : Int) :
    (UnpackedFloat.ofScientific format digits exponent).isNaN = false := by
  rw [UnpackedFloat.ofScientific]
  refine isNaN_dite (fun _ => rfl) fun _ => isNaN_ite rfl (isNaN_ite rfl ?_)
  exact isNaN_ite (isNaN_mul rfl rfl) (isNaN_div rfl rfl)

theorem isNaN_ofScientific (digits : Nat) (negative : Bool) (exponent : Nat) :
    (Float.ofScientific digits negative exponent).isNaN = false := by
  unfold Float.ofScientific
  split
  next exact_ =>
    have power := isProper_powerOfTen ⟨exponent, Nat.lt_succ_of_le exact_.2⟩
    have number : digits.toUInt64.toFloat.toModel.unpack.isNaN = false :=
      isNaN_unpack_pack (isNaN_ofNat ..)
    dsimp only
    split
    · exact isNaN_unpack_pack (isNaN_div number power)
    · exact isNaN_unpack_pack (isNaN_mul number power)
  next => exact isNaN_ofModel_pack (isNaN_ofScientific_model ..)

theorem isNaN_neg {x : Float} (number : x.isNaN = false) : (-x).isNaN = false := by
  apply isNaN_ofModel_pack
  change x.toModel.unpack.isNaN = false at number
  revert number
  cases x.toModel.unpack <;> exact id

/-- The double nearest to written digits is a number. -/
theorem Numeral.isNaN_toFloat (negative : Bool) (digits : Nat) (exponent : Int) :
    (Numeral.finite negative digits exponent).toFloat.isNaN = false := by
  have isNaN_negateIf {x : Float} (number : x.isNaN = false) :
      (negateIf negative x).isNaN = false := by
    cases negative with
    | true => exact isNaN_neg number
    | false => exact number
  apply isNaN_negateIf
  split
  · exact isNaN_ofScientific 0 true 1
  · split
    · decide +kernel
    · exact isNaN_ofScientific ..

end Calculator.Decimal
