import Calculator.Decimal.Layout
import Calculator.Proofs.Shortest

/-!
# How doubles are shown

A double is shown with its sign and the digits of its shortest decimal. Where
the first digit stands decides whether they have a plain point, with a digit
on each side of it, or an exponent of two digits at least.
-/

namespace Calculator.Decimal

open Text (Padded padded_iff)

theorem narrowBelow_ofBits {x : Float} (narrow : (Binary.ofBits x.toBits).narrowBelow = true) :
    (mantissaField x).toNat = 0 := by
  rw [← toNat_mantissaField]
  unfold Binary.ofBits at narrow
  dsimp only at narrow
  split at narrow
  next => cases narrow
  next =>
    rw [Bool.and_eq_true, beq_iff_eq] at narrow
    exact narrow.1

theorem canonical_of_rational? {x : Float} {q : ℚ} (known : rational? x = some q)
    (nonzero : q ≠ 0) : (Binary.ofBits x.toBits).Canonical := by
  have magnitude := magnitude_of_rational? known
  have positive : 0 < (Binary.ofBits x.toBits).mantissa := by
    rw [Nat.pos_iff_ne_zero]
    intro zero
    have value := magnitude.value
    rw [zero, Nat.cast_zero, zero_mul, abs_eq_zero] at value
    exact nonzero value
  have shapes : (-1074 ≤ (Binary.ofBits x.toBits).exponent) ∧
      ((Binary.ofBits x.toBits).exponent = -1074 ∨
        2 ^ 52 ≤ (Binary.ofBits x.toBits).mantissa) ∧
      ((Binary.ofBits x.toBits).narrowBelow = true →
        (Binary.ofBits x.toBits).mantissa = 2 ^ 52) := by
    by_cases field : exponentField x = 0#11
    · rw [ofBits_of_field_eq_zero field]
      exact ⟨le_rfl, .inl rfl, fun narrow => absurd narrow Bool.false_ne_true⟩
    · obtain ⟨mantissa, exponent⟩ := ofBits_of_field_ne_zero field
      have some : (exponentField x).toNat ≠ 0 :=
        fun none => field (BitVec.eq_of_toNat_eq none)
      refine ⟨by omega, .inr (by omega), fun narrow => ?_⟩
      rw [mantissa, narrowBelow_ofBits narrow, Nat.add_zero]
  exact ⟨positive, magnitude.mantissa_lt, shapes.1, magnitude.exponent_le, shapes.2.1, shapes.2.2⟩

/-! ## Digits with a point -/

/-- Digits and the exponent of the last one, written with a plain point. -/
inductive Pointed : List Char → Int → List Char → Prop where
  | whole (digits : List Char) (zeros : Nat) :
      Pointed digits zeros (digits ++ List.replicate zeros '0' ++ ['.', '0'])
  | inside {whole fraction : List Char} (before : whole ≠ []) (after : fraction ≠ []) :
      Pointed (whole ++ fraction) (-fraction.length) (whole ++ '.' :: fraction)
  | below (digits : List Char) (zeros : Nat) :
      Pointed digits (-(zeros + digits.length)) ('0' :: '.' :: List.replicate zeros '0' ++ digits)

theorem pointed_iff {digits : List Char} (nonempty : digits ≠ []) (exponent : Int)
    (chars : List Char) : Pointed digits exponent chars ↔ chars = Layout.point digits exponent := by
  have some := List.length_pos_iff.2 nonempty
  unfold Layout.point
  dsimp only
  constructor
  · rintro (⟨_, zeros⟩ | ⟨before, after⟩ | ⟨_, zeros⟩)
    · rw [if_pos (Int.natCast_nonneg zeros), Int.toNat_natCast]
    · rename_i whole fraction
      have someBefore := List.length_pos_iff.2 before
      have someAfter := List.length_pos_iff.2 after
      rw [if_neg (by omega), neg_neg, Int.toNat_natCast, List.length_append,
        if_pos (by omega), Nat.add_sub_cancel, List.take_left', List.drop_left'] <;> rfl
    · rw [if_neg (by omega), if_neg (by omega), neg_neg]
      congr
      omega
  · rintro rfl
    split
    next notNegative =>
      have pointed := Pointed.whole digits exponent.toNat
      rwa [Int.toNat_of_nonneg notNegative] at pointed
    next negative =>
      split
      next few =>
        have split := List.take_append_drop (digits.length - (-exponent).toNat) digits
        have pointed := @Pointed.inside (digits.take (digits.length - (-exponent).toNat))
          (digits.drop (digits.length - (-exponent).toNat))
          (by rw [← List.length_pos_iff, List.length_take]; omega)
          (by rw [← List.length_pos_iff, List.length_drop]; omega)
        rw [split, List.length_drop] at pointed
        have places : -((digits.length - (digits.length - (-exponent).toNat) : Nat) : Int) =
            exponent := by omega
        rwa [places] at pointed
      next many =>
        have pointed := Pointed.below digits ((-exponent).toNat - digits.length)
        have places : -((((-exponent).toNat - digits.length : Nat) : Int) + digits.length) =
            exponent := by omega
        rwa [places] at pointed

/-! ## Digits with an exponent -/

/-- An exponent with its sign and two digits at least. -/
inductive Powered : Int → List Char → Prop where
  | negative {exponent : Int} {digits : List Char} (negative : exponent < 0)
      (padded : Padded 10 2 exponent.natAbs digits) : Powered exponent ('e' :: '-' :: digits)
  | positive {exponent : Int} {digits : List Char} (positive : 0 ≤ exponent)
      (padded : Padded 10 2 exponent.natAbs digits) : Powered exponent ('e' :: '+' :: digits)

theorem powered_iff (exponent : Int) (chars : List Char) :
    Powered exponent chars ↔ chars = Layout.display.power exponent := by
  unfold Layout.power
  constructor
  · rintro (⟨negative, padded⟩ | ⟨positive, padded⟩)
    · rw [if_pos negative, (padded_iff ..).1 padded]
      rfl
    · rw [if_neg (Int.not_lt.2 positive), (padded_iff ..).1 padded]
      rfl
  · rintro rfl
    split
    next negative => exact .negative negative ((padded_iff ..).2 rfl)
    next positive => exact .positive (Int.not_lt.1 positive) ((padded_iff ..).2 rfl)

/-- Digits with a point after the first one, if there are more, and the exponent of the first. -/
inductive Scientific (leading : Int) : List Char → List Char → Prop where
  | single (digit : Char) {power : List Char} (powered : Powered leading power) :
      Scientific leading [digit] (digit :: power)
  | several (first second : Char) (rest : List Char) {power : List Char}
      (powered : Powered leading power) :
      Scientific leading (first :: second :: rest) (first :: '.' :: second :: rest ++ power)

theorem scientific_iff {digits : List Char} (nonempty : digits ≠ []) (leading : Int)
    (chars : List Char) :
    Scientific leading digits chars ↔ chars = Layout.display.scientific digits leading := by
  constructor
  · rintro (⟨digit, powered⟩ | ⟨first, second, rest, powered⟩)
    · rw [(powered_iff ..).1 powered]
      rfl
    · rw [(powered_iff ..).1 powered]
      rfl
  · rintro rfl
    match digits with
    | [] => exact absurd rfl nonempty
    | [digit] => exact .single digit ((powered_iff ..).2 rfl)
    | first :: second :: rest => exact .several first second rest ((powered_iff ..).2 rfl)

/-! ## Doubles -/

def Scaled.decimalDigits (decimal : Scaled) : List Char :=
  Nat.toDigits 10 decimal.digits

/-- The exponent of the first digit. -/
def Scaled.leading (decimal : Scaled) : Int :=
  decimal.exponent + decimal.decimalDigits.length - 1

/-- A decimal is written with a plain point from four zeros after it up to sixteen digits. -/
inductive Writes (decimal : Scaled) : List Char → Prop where
  | pointed {chars : List Char} (low : -4 ≤ decimal.leading) (high : decimal.leading < 16)
      (pointed : Pointed decimal.decimalDigits decimal.exponent chars) : Writes decimal chars
  | scientific {chars : List Char} (outside : decimal.leading < -4 ∨ 16 ≤ decimal.leading)
      (scientific : Scientific decimal.leading decimal.decimalDigits chars) : Writes decimal chars

theorem writes_iff (decimal : Scaled) (chars : List Char) :
    Writes decimal chars ↔ chars = Layout.display.decimal decimal := by
  have nonempty : decimal.decimalDigits ≠ [] := Nat.toDigits_ne_nil
  have written : Layout.display.decimal decimal =
      if -4 ≤ decimal.leading ∧ decimal.leading < 16 then
        Layout.point decimal.decimalDigits decimal.exponent
      else Layout.display.scientific decimal.decimalDigits decimal.leading := rfl
  rw [written]
  constructor
  · rintro (⟨low, high, pointed⟩ | ⟨outside, scientific⟩)
    · rw [if_pos ⟨low, high⟩, (pointed_iff nonempty ..).1 pointed]
    · rw [if_neg (by omega), (scientific_iff nonempty ..).1 scientific]
  · rintro rfl
    split
    next inside => exact .pointed inside.1 inside.2 ((pointed_iff nonempty ..).2 rfl)
    next outside => exact .scientific (by omega) ((scientific_iff nonempty ..).2 rfl)

/-- A minus when the sign bit is set, also before a zero. -/
def signChars (x : Float) : List Char :=
  if 2 ^ 63 ≤ x.toBits.toNat then ['-'] else []

theorem signChars_eq (x : Float) : (if x.toBits >>> 63 = 1 then ['-'] else []) = signChars x := by
  have bound := x.toBits.toNat_lt
  have bit : x.toBits >>> 63 = 1 ↔ 2 ^ 63 ≤ x.toBits.toNat := by
    rw [← UInt64.toNat_inj, UInt64.toNat_shiftRight, Nat.shiftRight_eq_div_pow]
    change x.toBits.toNat / 2 ^ 63 = 1 ↔ _
    omega
  rw [signChars]
  exact if_congr bit rfl rfl

/-- The text of a double: its sign and its shortest decimal, or what it is instead of a number. -/
inductive Displays (x : Float) : List Char → Prop where
  | notANumber (nan : x.isNaN = true) : Displays x ['n', 'a', 'n']
  | infinite (infinite : x.isInf = true) : Displays x (signChars x ++ ['i', 'n', 'f'])
  | zero (known : rational? x = some 0) : Displays x (signChars x ++ ['0', '.', '0'])
  | decimal {q : ℚ} {decimal : Scaled} {chars : List Char} (known : rational? x = some q)
      (nonzero : q ≠ 0) (shortest : (Binary.ofBits x.toBits).Shortest decimal)
      (writes : Writes decimal chars) : Displays x (signChars x ++ chars)

theorem magnitude_of_zero {x : Float} (known : rational? x = some 0) :
    Layout.display.magnitude (Binary.ofBits x.toBits) = ['0', '.', '0'] := by
  have value := (magnitude_of_rational? known).value
  rw [abs_zero, eq_comm, mul_eq_zero, Nat.cast_eq_zero] at value
  exact if_pos (value.resolve_right (zpow_pos two_pos _).ne')

theorem magnitude_of_nonzero {x : Float} {q : ℚ} (known : rational? x = some q)
    (nonzero : q ≠ 0) (chars : List Char) :
    (∃ decimal, (Binary.ofBits x.toBits).Shortest decimal ∧ Writes decimal chars) ↔
      chars = Layout.display.magnitude (Binary.ofBits x.toBits) := by
  have canonical := canonical_of_rational? known nonzero
  have shortest := Binary.shortest_spec canonical
  rw [Layout.magnitude, if_neg canonical.positive.ne', ← writes_iff]
  constructor
  · rintro ⟨decimal, another, writes⟩
    rwa [shortest.unique another]
  · exact fun writes => ⟨_, shortest, writes⟩

theorem displays_iff (x : Float) (chars : List Char) :
    Displays x chars ↔ String.ofList chars = Layout.display.text x := by
  unfold Layout.text
  dsimp only
  rw [signChars_eq]
  cases kind x with
  | notANumber nan notInfinite none =>
      have text : "nan" = String.ofList ['n', 'a', 'n'] := rfl
      rw [if_pos nan, text, String.ofList_inj]
      constructor
      · rintro (_ | infinite | known | known)
        · rfl
        · rw [notInfinite] at infinite; cases infinite
        · rw [none] at known; cases known
        · rw [none] at known; cases known
      · rintro rfl
        exact .notANumber nan
  | infinite number infinite none =>
      rw [number, if_neg Bool.false_ne_true, if_pos infinite, String.ofList_inj]
      constructor
      · rintro (nan | _ | known | known)
        · rw [number] at nan; cases nan
        · rfl
        · rw [none] at known; cases known
        · rw [none] at known; cases known
      · rintro rfl
        exact .infinite infinite
  | @finite q number notInfinite value =>
      rw [number, notInfinite, if_neg Bool.false_ne_true, if_neg Bool.false_ne_true,
        String.ofList_inj]
      constructor
      · rintro (nan | infinite | known | ⟨known, nonzero, shortest, writes⟩)
        · rw [number] at nan; cases nan
        · rw [notInfinite] at infinite; cases infinite
        · rw [magnitude_of_zero known]
        · rw [(magnitude_of_nonzero known nonzero _).1 ⟨_, shortest, writes⟩]
      · rintro rfl
        by_cases zero : q = 0
        · subst zero
          rw [magnitude_of_zero value]
          exact .zero value
        · obtain ⟨decimal, shortest, writes⟩ := (magnitude_of_nonzero value zero _).2 rfl
          exact .decimal value zero shortest writes

end Calculator.Decimal
