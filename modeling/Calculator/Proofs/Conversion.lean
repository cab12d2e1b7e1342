import Calculator.Proofs.IntegerText
import Calculator.Proofs.LevelText
import Calculator.Proofs.Range
import Calculator.Proofs.Service
import Calculator.Proofs.Showing

/-!
# What values stand for

Every setting accepts some values and reads them in its own way. The other
values are reported, but for those that escape: infinite numbers, which have
no integer part, integers without a nearest double, and values that would have
to be shown with too many digits.
-/

namespace Calculator

namespace Decimal

variable {x : Float} {q : ℚ}

/-- The integer part of a number, taken toward zero. -/
def towardZero (q : ℚ) : Int :=
  if q < 0 then ⌈q⌉ else ⌊q⌋

theorem natAbs_towardZero_le {bound : Nat} (bounded : |q| ≤ bound) :
    (towardZero q).natAbs ≤ bound := by
  unfold towardZero
  split
  · exact natAbs_ceil_le bounded
  · exact natAbs_floor_le bounded

/-- A double is negative when its value is. -/
theorem lt_zero_iff (known : rational? x = some q) : x < 0.0 ↔ q < 0 := by
  have order : x < 0.0 ↔ (x.toModel.unpack.compare (.zero .positive) == some .lt) = true := by
    change decide ((x.toModel.unpack.compare (.zero .positive) == some .lt) = true) = true ↔ _
    rw [decide_eq_true_eq]
  rw [order]
  unfold rational? at known
  cases parts : x.toModel.unpack with
  | notANumber => rw [parts] at known; cases known
  | infinity sign => rw [parts] at known; cases known
  | zero sign =>
      rw [parts] at known
      cases known
      cases sign <;> exact iff_of_false (by decide) (lt_irrefl 0)
  | finite sign mantissa exponent positive =>
      rw [parts] at known
      have unit : (0 : ℚ) < 2 ^ exponent := zpow_pos two_pos _
      have some : (0 : ℚ) < mantissa := Nat.cast_pos.2 positive
      cases known
      cases sign with
      | positive =>
          refine iff_of_false Bool.false_ne_true (not_lt.2 ?_)
          exact (mul_pos some unit).le
      | negative =>
          refine iff_of_true rfl ?_
          rw [Float.Model.UnpackedFloat.Sign.apply, Int.cast_neg, Int.cast_natCast, neg_mul, neg_lt_zero]
          exact mul_pos some unit

theorem floor_mul_zpow (mantissa : Nat) (exponent : Int) :
    ⌊(mantissa : ℚ) * 2 ^ exponent⌋ =
      (mantissa * 2 ^ exponent.toNat / 2 ^ (-exponent).toNat : Nat) := by
  rcases le_or_gt exponent 0 with small | large
  · obtain ⟨k, rfl⟩ : ∃ k : ℕ, exponent = -k := ⟨(-exponent).toNat, by omega⟩
    have quotient : (mantissa : ℚ) * 2 ^ (-(k : ℤ)) = (mantissa : ℚ) / (2 ^ k : ℕ) := by
      rw [zpow_neg, zpow_natCast, Nat.cast_pow, Nat.cast_ofNat, div_eq_mul_inv]
    rw [quotient, Rat.floor_natCast_div_natCast]
    simp
  · obtain ⟨k, rfl⟩ : ∃ k : ℕ, exponent = k := ⟨exponent.toNat, by omega⟩
    have product : (mantissa : ℚ) * 2 ^ (k : ℤ) = ((mantissa * 2 ^ k : ℕ) : ℚ) := by
      rw [zpow_natCast, Nat.cast_mul, Nat.cast_pow, Nat.cast_ofNat]
    rw [product, Int.floor_natCast]
    simp

theorem truncate_eq (known : rational? x = some q) : truncate x = towardZero q := by
  have whole : ((Binary.ofBits x.toBits).wholePart : Int) = ⌊|q|⌋ := by
    rw [(magnitude_of_rational? known).value, floor_mul_zpow]
    rfl
  unfold truncate towardZero
  dsimp only
  rw [whole]
  by_cases negative : q < 0
  · rw [if_pos negative, if_pos ((lt_zero_iff known).2 negative), abs_of_neg negative,
      Int.floor_neg, neg_neg]
  · rw [if_neg negative, if_neg (negative ∘ (lt_zero_iff known).1),
      abs_of_nonneg (not_lt.1 negative)]

theorem scaled_le_tenTo {k limit : Nat} (room : 54 + k ≤ limit) :
    (2 ^ 54 - 1) * 2 ^ k ≤ tenTo limit := calc
  (2 ^ 54 - 1) * 2 ^ k ≤ 2 ^ 54 * 2 ^ k := Nat.mul_le_mul_right _ (by decide)
  _ = 2 ^ (54 + k) := (Nat.pow_add 2 54 k).symm
  _ ≤ 10 ^ (54 + k) := Nat.pow_le_pow_left (by decide) _
  _ ≤ tenTo limit := pow_le_tenTo room

theorem overflowBound_le : overflowBound ≤ tenTo integerDigitLimit := by
  rw [overflowBound]
  exact scaled_le_tenTo (by decide)

end Decimal

namespace Settings

open Decimal

/-! ## Outcomes -/

section

variable {α β : Type}

/-- Something other than a report keeps the outcome from being a value. -/
def Unreported (outcome : Except LoadFault α) : Prop :=
  ∃ fault, outcome = .error fault ∧ ∀ error, fault ≠ .report error

theorem not_unreported_ok (x : α) : ¬ Unreported (.ok x) := by
  rintro ⟨_, failed, _⟩
  cases failed

theorem not_unreported_report (error : LoadError) :
    ¬ Unreported (.error (.report error) : Except LoadFault α) := by
  rintro ⟨_, failed, unreported⟩
  cases failed
  exact unreported error rfl

theorem unreported_overflow : Unreported (.error .overflow : Except LoadFault α) :=
  ⟨_, rfl, fun _ same => by cases same⟩

theorem unreported_bind (first : Except LoadFault α) (next : α → Except LoadFault β) :
    Unreported (first >>= next) ↔
      Unreported first ∨ ∃ x, first = .ok x ∧ Unreported (next x) := by
  cases first with
  | error fault =>
      change Unreported (.error fault) ↔ _
      simp [Unreported]
  | ok x =>
      change Unreported (next x) ↔ _
      simp [Unreported]

theorem unreported_map (first : Except LoadFault α) (f : α → β) :
    Unreported (first.map f) ↔ Unreported first := by
  cases first <;> simp [Unreported, Except.map]

theorem shown_eq_ok_iff (value : Value) (text : String) :
    shown value = .ok text ↔ TextOf value text := by
  rw [textOf_iff]
  unfold shown
  cases value.isShowable <;> simp [eq_comm]

theorem unreported_shown_iff (value : Value) :
    Unreported (shown value) ↔ value.isShowable = false := by
  unfold shown
  cases value.isShowable with
  | true => simp [not_unreported_ok]
  | false => simp [unreported_overflow]

theorem unreported_refuse_iff (value : Value) (error : LoadError) :
    Unreported (refuse value error : Except LoadFault α) ↔ value.isShowable = false := by
  have thrown : ¬ Unreported (throw (.report error) : Except LoadFault α) :=
    not_unreported_report error
  rw [refuse, unreported_bind, unreported_shown_iff]
  simp [thrown]

theorem refuse_bind (value : Value) (error : LoadError) (next : α → Except LoadFault β) :
    refuse value error >>= next = refuse value error := by
  unfold refuse shown
  cases value.isShowable <;> rfl

end

/-! ## Integers -/

/-- The integer that a value stands for. -/
inductive StandsFor : Value → Int → Prop where
  | integer (n : Int) : StandsFor (.integer n) n
  | float {x : Float} {q : ℚ} (known : rational? x = some q) : StandsFor (.float x) (towardZero q)
  | text {text : String} {n : Int} (written : IntegerText text n) : StandsFor (.text text) n

/-- An infinite number has no integer part. -/
def IsInfinite (value : Value) : Prop :=
  ∃ x : Float, value = .float x ∧ x.isInf = true

namespace StandsFor

variable {value : Value} {n : Int}

/-- An integer has too many digits when the value that it was taken from has. -/
theorem isShowable_eq (stands : StandsFor value n) :
    (Value.integer n).isShowable = value.isShowable := by
  cases stands with
  | integer n => rfl
  | @float x q known =>
      have shown : (Value.float x).isShowable = true := rfl
      have bound := natAbs_towardZero_le (magnitude_of_rational? known).abs_le
      rw [shown, isShowable_integer_iff]
      exact (bound.trans_lt greatest_lt_overflowBound).trans_le overflowBound_le
  | @text text n written =>
      have shown : (Value.text text).isShowable = true := rfl
      rw [shown, isShowable_integer_iff]
      exact written.natAbs_lt

theorem unique {other : Int} (stands : StandsFor value n) (same : StandsFor value other) :
    n = other := by
  cases stands with
  | integer n => cases same; rfl
  | float known =>
      cases same with
      | float again => rw [Option.some.inj (known.symm.trans again)]
  | text written =>
      cases same with
      | text again =>
          have read := (integer?_eq_some_iff _ _).2 written
          exact Option.some.inj (read.symm.trans ((integer?_eq_some_iff _ _).2 again))

theorem not_isInfinite (stands : StandsFor value n) : ¬ IsInfinite value := by
  rintro ⟨x, rfl, infinite⟩
  cases stands with
  | float known =>
      cases kind x with
      | notANumber _ _ none => rw [none] at known; cases known
      | infinite _ _ none => rw [none] at known; cases known
      | finite _ notInfinite _ => rw [notInfinite] at infinite; cases infinite

end StandsFor

/-- How the integer of a value is found. -/
inductive Finds (key : String) (value : Value) : Except LoadFault Int → Prop where
  | stands {n : Int} (stands : StandsFor value n) : Finds key value (.ok n)
  | infinite (infinite : IsInfinite value) : Finds key value (.error .overflow)
  | refused (finite : ¬ IsInfinite value) (none : ∀ n, ¬ StandsFor value n) :
      Finds key value (refuse value (.notAnInteger key value.literal))

theorem finds_integerOf (key : String) (value : Value) :
    Finds key value (integerOf key value) := by
  cases value with
  | boolean b => exact .refused (by rintro ⟨x, ⟨⟩, _⟩) (by rintro n ⟨⟩)
  | moment moment => exact .refused (by rintro ⟨x, ⟨⟩, _⟩) (by rintro n ⟨⟩)
  | list values => exact .refused (by rintro ⟨x, ⟨⟩, _⟩) (by rintro n ⟨⟩)
  | table entries => exact .refused (by rintro ⟨x, ⟨⟩, _⟩) (by rintro n ⟨⟩)
  | integer n => exact .stands (.integer n)
  | text text =>
      unfold integerOf
      dsimp only
      cases read : integer? text with
      | some n => exact .stands (.text ((integer?_eq_some_iff text n).1 read))
      | none =>
          refine .refused (by rintro ⟨x, ⟨⟩, _⟩) ?_
          intro n stands
          cases stands with
          | text written =>
              rw [(integer?_eq_some_iff text n).2 written] at read
              cases read
  | float x =>
      unfold integerOf
      dsimp only
      cases kind x with
      | notANumber nan notInfinite none =>
          rw [if_pos nan]
          refine .refused ?_ ?_
          · rintro ⟨_, ⟨⟩, infinite⟩
            rw [notInfinite] at infinite
            cases infinite
          · intro n stands
            cases stands with
            | float known => rw [none] at known; cases known
      | infinite number infinite none =>
          rw [number, if_neg Bool.false_ne_true, if_pos infinite]
          exact .infinite ⟨x, rfl, infinite⟩
      | finite number notInfinite known =>
          rw [number, notInfinite, if_neg Bool.false_ne_true, if_neg Bool.false_ne_true,
            truncate_eq known]
          exact .stands (.float known)

theorem integerOf_eq_ok_iff (key : String) (value : Value) (n : Int) :
    integerOf key value = .ok n ↔ StandsFor value n := by
  have finds := finds_integerOf key value
  generalize integerOf key value = outcome at finds
  cases finds with
  | stands stands =>
      rw [Except.ok.injEq]
      exact ⟨fun same => same ▸ stands, stands.unique⟩
  | infinite infinite => exact iff_of_false (by simp) fun stands => stands.not_isInfinite infinite
  | refused _ none => exact iff_of_false refuse_ne_ok (none n)

theorem unreported_integerOf_iff (key : String) (value : Value) :
    Unreported (integerOf key value) ↔
      IsInfinite value ∨ (value.isShowable = false ∧ ∀ n, ¬ StandsFor value n) := by
  have finds := finds_integerOf key value
  generalize integerOf key value = outcome at finds
  cases finds with
  | stands stands =>
      refine iff_of_false (not_unreported_ok _) ?_
      rintro (infinite | ⟨_, none⟩)
      · exact stands.not_isInfinite infinite
      · exact none _ stands
  | infinite infinite => exact iff_of_true unreported_overflow (.inl infinite)
  | refused finite none =>
      rw [unreported_refuse_iff, or_iff_right finite, and_iff_left none]

/-! ## Settings -/

variable {α : Type}

/-- A reader accepts some values; of the others it reports all but those that escape. -/
structure Reads (read : Value → Except LoadFault α) (accepts : Value → α → Prop)
    (escapes : Value → Prop) : Prop where
  eq_ok_iff : ∀ value x, read value = .ok x ↔ accepts value x
  unreported_iff : ∀ value, Unreported (read value) ↔ escapes value

/-- A value that is not accepted and has no integer part or has too many digits. -/
def EscapesUnless (accepts : Value → α → Prop) (value : Value) : Prop :=
  IsInfinite value ∨ (value.isShowable = false ∧ ∀ x, ¬ accepts value x)

/-- An integer is read and then taken into a setting when it is within bounds. -/
theorem reads_bounded {key : String} {embed : α → Int} (injective : Function.Injective embed)
    {within : α → Prop} {check : Int → Except LoadFault α}
    (checks : ∀ n, (∃ x, embed x = n ∧ within x ∧ check n = .ok x) ∨
      ((∀ x, embed x = n → ¬ within x) ∧ ∃ error, check n = refuse (.integer n) error)) :
    Reads (fun value => integerOf key value >>= check)
      (fun value x => StandsFor value (embed x) ∧ within x)
      (EscapesUnless fun value x => StandsFor value (embed x) ∧ within x) where
  eq_ok_iff value x := by
    constructor
    · intro read
      obtain ⟨n, found, checked⟩ := bind_eq_ok read
      have stands := (integerOf_eq_ok_iff key value n).1 found
      rcases checks n with ⟨y, rfl, inBounds, taken⟩ | ⟨_, error, refused⟩
      · rw [taken] at checked
        cases checked
        exact ⟨stands, inBounds⟩
      · rw [refused] at checked
        exact absurd checked refuse_ne_ok
    · rintro ⟨stands, inBounds⟩
      rw [(integerOf_eq_ok_iff key value _).2 stands]
      rcases checks (embed x) with ⟨y, same, _, taken⟩ | ⟨none, _⟩
      · rw [← injective same]
        exact same ▸ taken
      · exact absurd inBounds (none x rfl)
  unreported_iff value := by
    rw [unreported_bind, unreported_integerOf_iff, EscapesUnless, or_assoc]
    refine or_congr_right ⟨?_, ?_⟩
    · rintro (⟨long, none⟩ | ⟨n, found, unreported⟩)
      · exact ⟨long, fun x accepted => none _ accepted.1⟩
      · have stands := (integerOf_eq_ok_iff key value n).1 found
        rcases checks n with ⟨y, rfl, inBounds, taken⟩ | ⟨none, error, refused⟩
        · rw [taken] at unreported
          exact absurd unreported (not_unreported_ok y)
        · rw [refused, unreported_refuse_iff, stands.isShowable_eq] at unreported
          exact ⟨unreported, fun x accepted => none x (accepted.1.unique stands) accepted.2⟩
    · rintro ⟨long, none⟩
      -- A value with too many digits is refused as it is or as the integer it stands for.
      by_cases known : ∃ n, StandsFor value n
      · obtain ⟨n, stands⟩ := known
        refine .inr ⟨n, (integerOf_eq_ok_iff key value n).2 stands, ?_⟩
        rcases checks n with ⟨y, rfl, inBounds, taken⟩ | ⟨_, error, refused⟩
        · exact absurd ⟨stands, inBounds⟩ (none y)
        · rw [refused, unreported_refuse_iff, stands.isShowable_eq]
          exact long
      · exact .inl ⟨long, fun n stands => known ⟨n, stands⟩⟩

/-- The depths that expressions may have. -/
def IsDepth (value : Value) (depth : Int) : Prop :=
  StandsFor value depth ∧ 1 ≤ depth ∧ depth ≤ 300

theorem reads_depthOf (key : String) :
    Reads (depthOf key) IsDepth (EscapesUnless IsDepth) := by
  refine @reads_bounded Int key id Function.injective_id _ _ ?_
  intro n
  by_cases small : n < 1
  · refine .inr ⟨?_, .belowMinimum key 1 n, ?_⟩
    · rintro _ rfl ⟨atLeast, _⟩
      exact absurd small (Int.not_lt.2 atLeast)
    · rw [if_pos small, refuse_bind]
  · rw [if_neg small]
    by_cases large : (maxDepthLimit : Int) < n
    · refine .inr ⟨?_, .aboveMaximum key maxDepthLimit n, ?_⟩
      · rintro _ rfl ⟨_, atMost⟩
        exact absurd large (Int.not_lt.2 atMost)
      · rw [if_pos large, refuse_bind]
    · rw [if_neg large]
      exact .inl ⟨n, rfl, ⟨Int.not_lt.1 small, Int.not_lt.1 large⟩, rfl⟩

/-- Ports are numbers that are not negative. -/
def IsPort (value : Value) (port : Nat) : Prop :=
  StandsFor value port ∧ (0 : Int) ≤ port

theorem reads_portOf (key : String) : Reads (portOf key) IsPort (EscapesUnless IsPort) := by
  refine @reads_bounded Nat key Nat.cast Nat.cast_injective _ _ ?_
  intro n
  by_cases negative : n < 0
  · refine .inr ⟨?_, .belowMinimum key 0 n, ?_⟩
    · rintro port rfl notNegative
      exact absurd negative (Int.not_lt.2 notNegative)
    · rw [if_pos negative, refuse_bind]
  · rw [if_neg negative]
    have same := Int.toNat_of_nonneg (Int.not_lt.1 negative)
    exact .inl ⟨n.toNat, same, Int.natCast_nonneg _, rfl⟩

/-- A host is the text of a value. -/
def IsHost (value : Value) (host : String) : Prop :=
  TextOf value host

theorem reads_shown : Reads shown IsHost fun value => value.isShowable = false where
  eq_ok_iff := shown_eq_ok_iff
  unreported_iff := unreported_shown_iff

/-- The text of a value names a level. -/
def IsLevel (value : Value) (level : LogLevel) : Prop :=
  ∃ text, TextOf value text ∧ level.NamedBy text

theorem reads_levelOf (key : String) :
    Reads (levelOf key) IsLevel fun value => value.isShowable = false where
  eq_ok_iff value level := by
    constructor
    · intro read
      obtain ⟨text, found, named⟩ := bind_eq_ok read
      refine ⟨text, (shown_eq_ok_iff value text).1 found, (level.namedBy_iff text).2 ?_⟩
      cases known : LogLevel.ofText? text with
      | none => rw [known] at named; cases named
      | some other => rw [known] at named; cases named; rfl
    · rintro ⟨text, textOf, named⟩
      have found := (shown_eq_ok_iff value text).2 textOf
      simp only [levelOf, found, bind, Except.bind, (level.namedBy_iff text).1 named]
      rfl
  unreported_iff value := by
    rw [levelOf, unreported_bind, unreported_shown_iff]
    refine or_iff_left ?_
    rintro ⟨text, -, unreported⟩
    cases known : LogLevel.ofText? text with
    | none => rw [known] at unreported; exact not_unreported_report _ unreported
    | some level => rw [known] at unreported; exact not_unreported_ok level unreported

/-! ## Variables -/

/-- Some element stops a run over a list, and all before it let the run pass. -/
inductive First {ι : Type} (passes stops : ι → Prop) : List ι → Prop where
  | here {x : ι} {rest : List ι} (stopped : stops x) : First passes stops (x :: rest)
  | later {x : ι} {rest : List ι} (passed : passes x) (later : First passes stops rest) :
      First passes stops (x :: rest)

theorem first_cons_iff {ι : Type} {passes stops : ι → Prop} {x : ι} {rest : List ι} :
    First passes stops (x :: rest) ↔ stops x ∨ (passes x ∧ First passes stops rest) := by
  constructor
  · rintro (stopped | ⟨passed, later⟩)
    · exact .inl stopped
    · exact .inr ⟨passed, later⟩
  · rintro (stopped | ⟨passed, later⟩)
    · exact .here stopped
    · exact .later passed later

theorem mapM_eq_ok_iff {ι : Type} (f : ι → Except LoadFault α) (list : List ι) (results : List α) :
    list.mapM f = .ok results ↔ List.Forall₂ (fun x y => f x = .ok y) list results := by
  induction list generalizing results with
  | nil => cases results <;> simp [pure, Except.pure]
  | cons x rest ih =>
      rw [List.mapM_cons, List.forall₂_cons_left_iff]
      constructor
      · intro run
        obtain ⟨y, first, run⟩ := bind_eq_ok run
        obtain ⟨others, later, run⟩ := bind_eq_ok run
        cases run
        exact ⟨y, others, first, (ih others).1 later, rfl⟩
      · rintro ⟨y, others, first, later, rfl⟩
        rw [first, (ih others).2 later]
        rfl

theorem unreported_mapM_iff {ι : Type} (f : ι → Except LoadFault α) (list : List ι) :
    Unreported (list.mapM f) ↔
      First (fun x => ∃ y, f x = .ok y) (fun x => Unreported (f x)) list := by
  induction list with
  | nil => exact iff_of_false (not_unreported_ok _) (by rintro ⟨⟩)
  | cons x rest ih =>
      rw [List.mapM_cons, unreported_bind, first_cons_iff, ← ih]
      refine or_congr_right ?_
      constructor
      · rintro ⟨y, passed, unreported⟩
        rw [unreported_bind] at unreported
        rcases unreported with later | ⟨others, _, unreported⟩
        · exact ⟨⟨y, passed⟩, later⟩
        · exact absurd unreported (not_unreported_ok _)
      · rintro ⟨⟨y, passed⟩, later⟩
        exact ⟨y, passed, (unreported_bind _ _).2 (.inl later)⟩

/-- The double that a value stands for. Integers out of the range of doubles have none. -/
inductive IsNumber : Value → Float → Prop where
  | integer {n : Int} (small : n.natAbs < overflowBound) : IsNumber (.integer n) (Float.ofInt n)
  | float (x : Float) : IsNumber (.float x) x

theorem isNumber_integer_iff (n : Int) (x : Float) :
    IsNumber (.integer n) x ↔ double? n = some x := by
  unfold double?
  dsimp only
  split
  next infinite =>
    refine iff_of_false ?_ (by rintro ⟨⟩)
    rintro ⟨small⟩
    exact absurd ((isInf_ofInt_iff n).1 infinite) (Nat.not_le.2 small)
  next finite =>
    rw [isInf_ofInt_iff, Nat.not_le] at finite
    rw [Option.some.injEq]
    constructor
    · rintro ⟨_⟩
      rfl
    · rintro rfl
      exact .integer finite

/-- A value that is no double and is too large or has too many digits. -/
def NumberEscapes (value : Value) : Prop :=
  (∃ n, value = .integer n ∧ overflowBound ≤ n.natAbs) ∨ value.isShowable = false

/-- An integer escapes when it has no double; then it may have too many digits as well. -/
theorem numberEscapes_integer_iff (n : Int) :
    NumberEscapes (.integer n) ↔ double? n = none := by
  rw [double?_eq_none_iff]
  constructor
  · rintro (⟨_, ⟨⟩, large⟩ | long)
    · exact large
    · rw [Bool.eq_false_iff, ne_eq, isShowable_integer_iff, Nat.not_lt] at long
      exact overflowBound_le.trans long
  · exact fun large => .inl ⟨n, rfl, large⟩

theorem reads_variableOf (name : String) : Reads (variableOf name) IsNumber NumberEscapes where
  eq_ok_iff value x := by
    constructor
    · intro read
      unfold variableOf at read
      split at read
      next n =>
        split at read
        next near => cases read; exact (isNumber_integer_iff n _).2 near
        next => cases read
      next => cases read; exact .float x
      next => exact absurd read refuse_ne_ok
    · intro isNumber
      cases value with
      | integer n => rw [variableOf, (isNumber_integer_iff n x).1 isNumber]
      | float y => cases isNumber; rfl
      | _ => cases isNumber
  unreported_iff value := by
    unfold variableOf
    split
    next n =>
      rw [numberEscapes_integer_iff]
      cases double? n with
      | none => exact iff_of_true unreported_overflow rfl
      | some x => exact iff_of_false (not_unreported_ok x) (by rintro ⟨⟩)
    next x =>
      refine iff_of_false (not_unreported_ok x) ?_
      rintro (⟨_, ⟨⟩, _⟩ | long)
      cases (show true = false from long)
    next notInteger _ =>
      rw [unreported_refuse_iff, NumberEscapes, or_iff_right]
      rintro ⟨n, rfl, _⟩
      exact notInteger n rfl

/-- An entry of a table with its number. -/
def numberOf (entry : String × Value) : Except LoadFault (String × Float) := do
  return (entry.1, ← variableOf entry.1 entry.2)

theorem numberOf_eq_ok_iff (entry : String × Value) (number : String × Float) :
    numberOf entry = .ok number ↔ entry.1 = number.1 ∧ IsNumber entry.2 number.2 := by
  rw [← (reads_variableOf entry.1).eq_ok_iff]
  constructor
  · intro read
    obtain ⟨x, known, same⟩ := bind_eq_ok read
    cases same
    exact ⟨rfl, known⟩
  · rintro ⟨same, known⟩
    rw [numberOf, known, same]
    rfl

theorem exists_numberOf_iff (entry : String × Value) :
    (∃ number, numberOf entry = .ok number) ↔ ∃ x, IsNumber entry.2 x := by
  constructor
  · rintro ⟨number, read⟩
    exact ⟨number.2, ((numberOf_eq_ok_iff entry number).1 read).2⟩
  · rintro ⟨x, known⟩
    exact ⟨(entry.1, x), (numberOf_eq_ok_iff entry _).2 ⟨rfl, known⟩⟩

theorem unreported_numberOf_iff (entry : String × Value) :
    Unreported (numberOf entry) ↔ NumberEscapes entry.2 := by
  rw [numberOf, unreported_bind, (reads_variableOf entry.1).unreported_iff]
  refine or_iff_left ?_
  rintro ⟨x, -, unreported⟩
  exact not_unreported_ok _ unreported

/-- A table of variables, which the catalog takes. -/
def IsTable (value : Value) (values : Table String Float) : Prop :=
  ∃ entries numbers, value = .table entries ∧
    List.Forall₂ (fun entry number => entry.1 = number.1 ∧ IsNumber entry.2 number.2)
      entries numbers ∧
    values = .ofList numbers ∧ ∃ registry, Catalog.registry.withVariables values = .ok registry

/-- The first entry of a table that is no double escapes. -/
def TableEscapes (value : Value) : Prop :=
  ∃ entries, value = .table entries ∧
    First (fun entry => ∃ x, IsNumber entry.2 x) (fun entry => NumberEscapes entry.2) entries

/-- The variables are checked against the catalog after all of them are read. -/
def checkTable (numbers : List (String × Float)) : Except LoadFault (Table String Float) := do
  let _ ← (Catalog.registry.withVariables (.ofList numbers)).mapError fun error =>
    LoadFault.report (.invalidVariable error)
  return .ofList numbers

theorem variablesOf_table (entries : List (String × Value)) :
    variablesOf (.table entries) = entries.mapM numberOf >>= checkTable :=
  rfl

theorem checkTable_eq_ok_iff (numbers : List (String × Float)) (values : Table String Float) :
    checkTable numbers = .ok values ↔ values = .ofList numbers ∧
      ∃ registry, Catalog.registry.withVariables values = .ok registry := by
  unfold checkTable
  cases taken : Catalog.registry.withVariables (.ofList numbers) with
  | error error =>
      refine iff_of_false (by rintro ⟨⟩) ?_
      rintro ⟨rfl, registry, accepted⟩
      rw [taken] at accepted
      cases accepted
  | ok registry =>
      constructor
      · rintro ⟨⟩
        exact ⟨rfl, registry, taken⟩
      · rintro ⟨rfl, _⟩
        rfl

theorem not_unreported_checkTable (numbers : List (String × Float)) :
    ¬ Unreported (checkTable numbers) := by
  unfold checkTable
  cases Catalog.registry.withVariables (.ofList numbers) with
  | error error => exact not_unreported_report (.invalidVariable error)
  | ok registry => exact not_unreported_ok (Table.ofList numbers)

theorem reads_variablesOf : Reads variablesOf IsTable TableEscapes where
  eq_ok_iff value values := by
    constructor
    · intro read
      cases value with
      | table entries =>
          rw [variablesOf_table] at read
          obtain ⟨numbers, known, checked⟩ := bind_eq_ok read
          rw [mapM_eq_ok_iff] at known
          simp only [numberOf_eq_ok_iff] at known
          exact ⟨entries, numbers, rfl, known, (checkTable_eq_ok_iff numbers values).1 checked⟩
      | _ => cases read
    · rintro ⟨entries, numbers, rfl, known, taken⟩
      simp only [← numberOf_eq_ok_iff] at known
      rw [variablesOf_table, (mapM_eq_ok_iff _ _ _).2 known]
      exact (checkTable_eq_ok_iff numbers values).2 taken
  unreported_iff value := by
    cases value with
    | table entries =>
        rw [variablesOf_table, unreported_bind, unreported_mapM_iff]
        simp only [exists_numberOf_iff, unreported_numberOf_iff]
        constructor
        · rintro (escapes | ⟨numbers, -, unreported⟩)
          · exact ⟨entries, rfl, escapes⟩
          · exact absurd unreported (not_unreported_checkTable numbers)
        · rintro ⟨_, ⟨⟩, escapes⟩
          exact .inl escapes
    | _ => exact iff_of_false (not_unreported_report _) (by rintro ⟨_, ⟨⟩, _⟩)

end Settings

end Calculator
