import Calculator.Decimal.Integer
import Calculator.Proofs.Numeral
import Mathlib.Data.List.Forall2
import Mathlib.Data.List.Induction
import Mathlib.Data.Nat.Digits.Defs

/-!
# Texts of integers

A text of an integer has blanks around a sign, if there is one, and decimal
digits of any script, with single underscores between them. These are the
texts that are read as integers, unless they have too many digits.
-/

namespace Calculator.Decimal

open Text (IsDecimal)

/-! ## What stands in a text -/

/-- A blank that may stand around a number. The separators of files and records are blanks, but none
of these. -/
def IsPadding (c : Char) : Prop :=
  c = ' ' ∨ ('\t' ≤ c ∧ c ≤ '\r') ∨ (128 ≤ c.toNat ∧ Text.isBlank c = true)

/-- Digits and their values, after a digit or not. An underscore stands between two digits. -/
inductive DigitRun : Bool → List Char → List Nat → Prop where
  | done : DigitRun true [] []
  | digit {afterDigit : Bool} {c : Char} {value : Nat} {chars : List Char} {values : List Nat}
      (decimal : IsDecimal c value) (rest : DigitRun true chars values) :
      DigitRun afterDigit (c :: chars) (value :: values)
  | underscore {chars : List Char} {values : List Nat} (rest : DigitRun false chars values) :
      DigitRun true ('_' :: chars) values

theorem DigitRun.lt_ten {afterDigit : Bool} {chars : List Char} {values : List Nat}
    (run : DigitRun afterDigit chars values) : ∀ value ∈ values, value < 10 := by
  induction run with
  | done => simp
  | digit decimal rest ih => exact List.forall_mem_cons.2 ⟨decimal.lt, ih⟩
  | underscore rest ih => exact ih

theorem DigitRun.ne_nil {chars : List Char} {values : List Nat}
    (run : DigitRun false chars values) : values ≠ [] := by
  cases run with
  | digit decimal rest => exact List.cons_ne_nil _ _

/-- A sign and what it makes of a number. -/
inductive Signs : List Char → Nat → Int → Prop where
  | none (n : Nat) : Signs [] n n
  | plus (n : Nat) : Signs ['+'] n n
  | minus (n : Nat) : Signs ['-'] n (-n)

/-- A text that is an integer with at most 4300 digits, those of the leading zeros included. -/
inductive IntegerText (text : String) (n : Int) : Prop where
  | intro {before sign digits after : List Char} {values : List Nat}
      (chars : text.toList = before ++ (sign ++ digits) ++ after)
      (isBefore : ∀ c ∈ before, IsPadding c) (isAfter : ∀ c ∈ after, IsPadding c)
      (run : DigitRun false digits values) (short : values.length ≤ 4300)
      (signs : Signs sign (Nat.ofDigits 10 values.reverse) n) : IntegerText text n

theorem pow_le_tenTo {count limit : Nat} (room : count ≤ limit) : 10 ^ count ≤ tenTo limit :=
  Nat.pow_le_pow_right (by decide) room

/-- An integer in a text has no more digits than the text may have. -/
theorem IntegerText.natAbs_lt {text : String} {n : Int} (written : IntegerText text n) :
    n.natAbs < tenTo integerDigitLimit := by
  obtain ⟨-, -, -, run, short, signs⟩ := written
  rename_i values
  have digits : ∀ value ∈ values.reverse, value < 10 :=
    fun value member => run.lt_ten value (List.mem_reverse.1 member)
  have bound := Nat.ofDigits_lt_base_pow_length (by decide : 1 < 10) digits
  rw [List.length_reverse] at bound
  have magnitude : n.natAbs = Nat.ofDigits 10 values.reverse := by
    cases signs with
    | none => rfl
    | plus => rfl
    | minus => rw [Int.natAbs_neg, Int.natAbs_natCast]
  rw [magnitude]
  exact bound.trans_le (pow_le_tenTo short)

/-! ## Plain characters -/

/-- The plain character of a digit. -/
def plainDigit (value : Nat) : Char :=
  Char.ofNat ('0'.toNat + value)

theorem plainDigit_spec : ∀ value < 10, (plainDigit value).isDigit = true ∧
    (plainDigit value).toNat - '0'.toNat = value := by
  decide

theorem plainDigit_of_isDigit {c : Char} (digit : c.isDigit = true) :
    plainDigit (c.toNat - '0'.toNat) = c := by
  have atLeast : '0'.toNat ≤ c.toNat := by
    simp only [Char.isDigit, Bool.and_eq_true, decide_eq_true_eq] at digit
    exact digit.1
  rw [plainDigit, Nat.add_sub_cancel' atLeast, Char.ofNat_toNat]

/-- The plain character that stands for a character of any script. -/
inductive Plain : Char → Char → Prop where
  | ascii {c : Char} (low : c.toNat < 128) : Plain c c
  | blank {c : Char} (high : 128 ≤ c.toNat) (blank : Text.isBlank c = true) : Plain c ' '
  | digit {c : Char} {value : Nat} (high : 128 ≤ c.toNat) (notBlank : Text.isBlank c = false)
      (decimal : IsDecimal c value) : Plain c (plainDigit value)

theorem plainChar?_eq_some_iff (c plain : Char) : plainChar? c = some plain ↔ Plain c plain := by
  unfold plainChar?
  constructor
  · intro known
    split at known
    next low => cases known; exact .ascii low
    next high =>
      split at known
      next blank => cases known; exact .blank (Nat.not_lt.1 high) blank
      next notBlank =>
        obtain ⟨value, decimal, rfl⟩ := Option.map_eq_some_iff.1 known
        exact .digit (Nat.not_lt.1 high) (Bool.eq_false_iff.2 notBlank)
          ((Text.decimalValue?_eq_some_iff c value).1 decimal)
  · rintro (low | ⟨high, blank⟩ | ⟨high, notBlank, decimal⟩)
    · rw [if_pos low]
    · rw [if_neg (Nat.not_lt.2 high), if_pos blank]
    · rw [if_neg (Nat.not_lt.2 high), notBlank, if_neg Bool.false_ne_true,
        (Text.decimalValue?_eq_some_iff c _).2 decimal]
      rfl

/-- No decimal digit is a blank. -/
theorem isBlank_of_isDecimal {c : Char} {value : Nat} (decimal : IsDecimal c value) :
    Text.isBlank c = false := by
  have apart : ∀ first ∈ Text.decimalZeros, ∀ range ∈ Text.blanks,
      range.2 < first ∨ first + 10 ≤ range.1 := by decide +kernel
  obtain ⟨first, member, place, digit⟩ := decimal
  rw [Bool.eq_false_iff, ne_eq, Text.isBlank, Text.Ranges.covers_iff]
  rintro ⟨range, blank, low, high⟩
  have outside := apart first member range blank
  omega

theorem isDecimal_ascii {c : Char} (low : c.toNat < 128) (value : Nat) :
    IsDecimal c value ↔ c.isDigit = true ∧ c.toNat - '0'.toNat = value := by
  have plain : ∀ first ∈ Text.decimalZeros, first < 128 → first = '0'.toNat := by decide
  have range : c.isDigit = true ↔ '0'.toNat ≤ c.toNat ∧ c.toNat < '0'.toNat + 10 := by
    simp [Char.isDigit, UInt32.le_iff_toNat_le]
    omega
  rw [range]
  constructor
  · rintro ⟨first, member, place, digit⟩
    cases plain first member (by omega)
    omega
  · rintro ⟨⟨low, high⟩, rfl⟩
    exact ⟨'0'.toNat, by decide, by omega, by omega⟩

namespace Plain

variable {c plain : Char}

theorem isDecimal_iff (stands : Plain c plain) (value : Nat) :
    IsDecimal c value ↔ plain.isDigit = true ∧ plain.toNat - '0'.toNat = value := by
  cases stands with
  | ascii low => exact isDecimal_ascii low value
  | blank high blank =>
      refine iff_of_false (fun decimal => ?_) fun digit => absurd digit.1 (by decide)
      rw [isBlank_of_isDecimal decimal] at blank
      cases blank
  | @digit same high notBlank decimal =>
      have spec := plainDigit_spec same decimal.lt
      rw [spec.2, and_iff_right spec.1]
      exact ⟨decimal.unique, fun equal => equal ▸ decimal⟩

theorem isPadding_iff (stands : Plain c plain) : IsPadding c ↔ isPlainBlank plain = true := by
  cases stands with
  | ascii low =>
      have space : c = ' ' ↔ c.toNat = 32 := Char.ext_iff.trans UInt32.toNat_inj.symm
      have lines : '\t' ≤ c ∧ c ≤ '\r' ↔ 9 ≤ c.toNat ∧ c.toNat ≤ 13 := Iff.rfl
      rw [IsPadding, space, lines]
      simp [isPlainBlank, Nat.not_le.2 low]
  | blank high blank => exact iff_of_true (.inr (.inr ⟨high, blank⟩)) rfl
  | @digit value high notBlank decimal =>
      have digit := (plainDigit_spec value decimal.lt).1
      rw [(plain_char (.inl digit)).2.1]
      refine iff_of_false ?_ Bool.false_ne_true
      rintro (rfl | ⟨_, small⟩ | ⟨_, blank⟩)
      · exact absurd high (by decide)
      · exact absurd (high.trans small) (by decide)
      · rw [notBlank] at blank
        cases blank

theorem eq_iff {mark : Char} (stands : Plain c plain)
    (isMark : mark = '_' ∨ mark = '+' ∨ mark = '-') : c = mark ↔ plain = mark := by
  have low : mark.toNat < 128 := by rcases isMark with rfl | rfl | rfl <;> decide
  have notDigit : mark.isDigit = false := by rcases isMark with rfl | rfl | rfl <;> rfl
  have notBlank : mark ≠ ' ' := by rcases isMark with rfl | rfl | rfl <;> decide
  cases stands with
  | ascii => rfl
  | blank high =>
      refine iff_of_false ?_ notBlank.symm
      rintro rfl
      omega
  | @digit value high _ decimal =>
      refine iff_of_false ?_ ?_
      · rintro rfl
        omega
      · rintro rfl
        rw [(plainDigit_spec value decimal.lt).1] at notDigit
        cases notDigit

end Plain

/-! ## Digits with underscores -/

/-- The plain characters of a run are joined to its digits. -/
theorem exists_plain_of_run {afterDigit : Bool} {chars : List Char} {values : List Nat}
    (run : DigitRun afterDigit chars values) : ∃ plain, List.Forall₂ Plain chars plain ∧
      joinDigits? afterDigit plain = some (values.map plainDigit) ∧
      ∀ c ∈ plain, isPlainBlank c = false := by
  induction run with
  | done => exact ⟨[], .nil, rfl, by simp⟩
  | @digit afterDigit c value chars values decimal rest ih =>
      obtain ⟨plain, stands, joined, notBlank⟩ := ih
      obtain ⟨digit, -⟩ := plainDigit_spec value decimal.lt
      have first : Plain c (plainDigit value) := by
        rcases Nat.lt_or_ge c.toNat 128 with low | high
        · obtain ⟨plain, rfl⟩ := (isDecimal_ascii low value).1 decimal
          rw [plainDigit_of_isDigit plain]
          exact .ascii low
        · exact .digit high (isBlank_of_isDecimal decimal) decimal
      refine ⟨plainDigit value :: plain, .cons first stands, ?_, ?_⟩
      · rw [joinDigits?, if_neg (plain_char (.inl digit)).2.2, digit, joined]
        rfl
      · exact List.forall_mem_cons.2 ⟨(plain_char (.inl digit)).2.1, notBlank⟩
  | underscore rest ih =>
      obtain ⟨plain, stands, joined, notBlank⟩ := ih
      refine ⟨'_' :: plain, .cons (.ascii (by decide)) stands, ?_,
        List.forall_mem_cons.2 ⟨rfl, notBlank⟩⟩
      have next : plain.head?.any Char.isDigit = true := by
        cases rest with
        | digit decimal rest =>
            cases stands with
            | cons first later => exact ((first.isDecimal_iff _).1 decimal).1
      rw [joinDigits?, if_pos rfl, next]
      exact joined

theorem ne_nil_of_joinDigits? {plain bare : List Char} {afterDigit : Bool}
    (first : plain.head?.any Char.isDigit = true)
    (joined : joinDigits? afterDigit plain = some bare) : bare ≠ [] := by
  cases plain with
  | nil => cases first
  | cons c rest =>
      have notUnderscore : c ≠ '_' := (plain_char (.inl first)).2.2
      rw [joinDigits?, if_neg notUnderscore] at joined
      obtain ⟨others, -, rfl⟩ := Option.map_eq_some_iff.1 joined
      exact List.cons_ne_nil c others

theorem digitRun_of_joinDigits? {chars plain : List Char} (stands : List.Forall₂ Plain chars plain)
    {afterDigit : Bool} {bare : List Char} (joined : joinDigits? afterDigit plain = some bare)
    (digits : ∀ c ∈ bare, c.isDigit = true) (some : afterDigit = false → bare ≠ []) :
    DigitRun afterDigit chars (bare.map fun c => c.toNat - '0'.toNat) := by
  -- The recursion of `joinDigits?` over the plain characters; only after a digit may nothing follow.
  induction stands generalizing afterDigit bare with
  | nil =>
      cases joined
      cases afterDigit with
      | false => exact absurd rfl (some rfl)
      | true => exact .done
  | @cons c first chars plain stands later ih =>
      rw [joinDigits?] at joined
      split at joined
      next underscore =>
        split at joined
        next between =>
          -- The digit that must follow is among the joined ones.
          rw [Bool.and_eq_true] at between
          obtain ⟨rfl, next⟩ := between
          cases (stands.eq_iff (.inl rfl)).2 underscore
          exact .underscore (ih joined digits fun _ => ne_nil_of_joinDigits? next joined)
        next => cases joined
      next other =>
        obtain ⟨rest, followed, rfl⟩ := Option.map_eq_some_iff.1 joined
        obtain ⟨digit, inRest⟩ := List.forall_mem_cons.1 digits
        rw [digit] at followed
        exact .digit ((stands.isDecimal_iff _).2 ⟨digit, rfl⟩) (ih followed inRest (by simp))

/-! ## Reading -/

theorem natural_eq_ofDigits (digits : List Char) :
    natural digits = Nat.ofDigits 10 (digits.map fun c => c.toNat - '0'.toNat).reverse := by
  induction digits using List.reverseRecOn with
  | nil => rfl
  | append_singleton digits c ih =>
      rw [natural_append_digit, ih, List.map_append, List.reverse_append]
      exact (Nat.add_comm _ _).trans Nat.ofDigits_cons.symm

theorem natural_plainDigits {values : List Nat} (digits : ∀ value ∈ values, value < 10) :
    natural (values.map plainDigit) = Nat.ofDigits 10 values.reverse := by
  rw [natural_eq_ofDigits, List.map_map]
  congr
  refine (List.map_congr_left fun value member => ?_).trans (List.map_id values)
  exact (plainDigit_spec value (digits value member)).2

theorem mapM_plainChar?_eq_some_iff (chars plain : List Char) :
    chars.mapM plainChar? = some plain ↔ List.Forall₂ Plain chars plain := by
  induction chars generalizing plain with
  | nil => simp [eq_comm]
  | cons c rest ih =>
      rw [List.mapM_cons, List.forall₂_cons_left_iff]
      simp only [Option.bind_eq_bind, Option.bind_eq_some_iff, plainChar?_eq_some_iff, ih]
      simp [eq_comm]

theorem exists_append_of_forall₂ {front back chars : List Char}
    (stands : List.Forall₂ Plain chars (front ++ back)) :
    ∃ first rest, chars = first ++ rest ∧ List.Forall₂ Plain first front ∧
      List.Forall₂ Plain rest back :=
  ⟨chars.take front.length, chars.drop front.length, (List.take_append_drop _ _).symm,
    List.forall₂_take_append _ _ _ stands, List.forall₂_drop_append _ _ _ stands⟩

theorem padding_of_blanks {chars blanks : List Char} (stands : List.Forall₂ Plain chars blanks)
    (all : ∀ c ∈ blanks, isPlainBlank c = true) : ∀ c ∈ chars, IsPadding c := by
  induction stands with
  | nil => simp
  | cons first rest ih =>
      obtain ⟨blank, inRest⟩ := List.forall_mem_cons.1 all
      exact List.forall_mem_cons.2 ⟨first.isPadding_iff.2 blank, ih inRest⟩

theorem exists_blanks_of_padding {chars : List Char} (padding : ∀ c ∈ chars, IsPadding c) :
    ∃ blanks, List.Forall₂ Plain chars blanks ∧ ∀ c ∈ blanks, isPlainBlank c = true := by
  induction chars with
  | nil => exact ⟨[], .nil, by simp⟩
  | cons c rest ih =>
      obtain ⟨isPadding, inRest⟩ := List.forall_mem_cons.1 padding
      obtain ⟨blanks, stands, all⟩ := ih inRest
      have first : ∃ plain, Plain c plain := by
        rcases isPadding with rfl | ⟨_, high⟩ | ⟨high, blank⟩
        · exact ⟨_, .ascii (by decide)⟩
        · exact ⟨c, .ascii (lt_of_le_of_lt high (by decide))⟩
        · exact ⟨_, .blank high blank⟩
      obtain ⟨plain, same⟩ := first
      exact ⟨plain :: blanks, .cons same stands,
        List.forall_mem_cons.2 ⟨same.isPadding_iff.1 isPadding, all⟩⟩

theorem splitSign_cases (bare : List Char) :
    splitSign bare = (false, bare) ∨ ∃ sign digits, bare = sign :: digits ∧
      (sign = '+' ∨ sign = '-') ∧ splitSign bare = (decide (some sign = some '-'), digits) := by
  cases bare with
  | nil => exact .inl rfl
  | cons c rest =>
      rcases splitSign_cons c rest with ⟨isSign, same⟩ | same
      · exact .inr ⟨c, rest, rfl, isSign, same⟩
      · exact .inl same

/-- A sign that is split off from joined digits stands at the head of the text. -/
theorem exists_signs_of_splitSign {chars middle bare digits : List Char} {negative : Bool}
    (stands : List.Forall₂ Plain chars middle) (joined : joinDigits? false middle = some bare)
    (split : splitSign bare = (negative, digits)) :
    ∃ sign rest unsigned, chars = sign ++ rest ∧ List.Forall₂ Plain rest unsigned ∧
      joinDigits? false unsigned = some digits ∧ ∀ n, Signs sign n (signed negative n) := by
  rcases splitSign_cases bare with same | ⟨sign, others, rfl, isSign, same⟩
  · cases same.symm.trans split
    exact ⟨[], chars, middle, rfl, stands, joined, .none⟩
  · cases same.symm.trans split
    cases stands with
    | nil => cases joined
    | @cons c plain rest middle first later =>
        rw [joinDigits?] at joined
        split at joined
        next => cases joined
        next =>
          obtain ⟨_, followed, head⟩ := Option.map_eq_some_iff.1 joined
          cases head
          have signStands := (first.eq_iff (.inr isSign)).2 rfl
          have notDigit : sign.isDigit = false := by rcases isSign with rfl | rfl <;> rfl
          rw [notDigit] at followed
          refine ⟨[sign], rest, middle, by rw [signStands]; rfl, later, followed, ?_⟩
          rcases isSign with rfl | rfl
          · exact .plus
          · exact .minus

theorem integerText_of_integer? {text : String} {n : Int} (known : integer? text = some n) :
    IntegerText text n := by
  obtain ⟨bare, read, numeral⟩ := Option.bind_eq_some_iff.1 known
  obtain ⟨plain, mapped, joined⟩ := Option.bind_eq_some_iff.1 read
  have stands := (mapM_plainChar?_eq_some_iff _ _).1 mapped
  obtain ⟨front, back, split, isFront, isBack⟩ := Text.exists_trimBy isPlainBlank plain
  rw [split] at stands
  obtain ⟨rest, after, chars, stands, standsAfter⟩ := exists_append_of_forall₂ stands
  obtain ⟨before, middle, rfl, standsBefore, stands⟩ := exists_append_of_forall₂ stands
  cases parts : splitSign bare with
  | mk negative digits =>
      obtain ⟨sign, run, unsigned, rfl, inRun, joinedRun, signs⟩ :=
        exists_signs_of_splitSign stands joined parts
      rw [parts] at numeral
      dsimp only at numeral
      split at numeral
      next accepted =>
        obtain ⟨nonempty, digital, short⟩ := accepted
        have isDigits := List.all_eq_true.1 digital
        cases numeral
        refine ⟨chars, padding_of_blanks standsBefore isFront, padding_of_blanks standsAfter isBack,
          digitRun_of_joinDigits? inRun joinedRun isDigits fun _ => nonempty, ?_, ?_⟩
        · rw [List.length_map]
          exact short
        · rw [← natural_eq_ofDigits]
          exact signs _
      next => cases numeral

theorem Signs.plain {sign : List Char} {magnitude : Nat} {n : Int}
    (signs : Signs sign magnitude n) :
    List.Forall₂ Plain sign sign ∧ ∀ c ∈ sign, isPlainBlank c = false := by
  cases signs with
  | none => exact ⟨.nil, by simp⟩
  | plus => exact ⟨.cons (.ascii (by decide)) .nil, List.forall_mem_singleton.2 rfl⟩
  | minus => exact ⟨.cons (.ascii (by decide)) .nil, List.forall_mem_singleton.2 rfl⟩

/-- Digits with or without a sign are split and read. -/
theorem Signs.read {sign plain digits : List Char} {magnitude : Nat} {n : Int}
    (signs : Signs sign magnitude n) (joined : joinDigits? false plain = some digits)
    (isDigits : ∀ c ∈ digits, c.isDigit = true) (nonempty : digits ≠ []) :
    ∃ bare negative, joinDigits? false (sign ++ plain) = some bare ∧
      splitSign bare = (negative, digits) ∧ signed negative magnitude = n := by
  cases signs with
  | none =>
      refine ⟨digits, false, joined, ?_, rfl⟩
      cases digits with
      | nil => exact absurd rfl nonempty
      | cons c rest => exact splitSign_of_plain (.inl (isDigits c (List.mem_cons_self ..)))
  | plus => exact ⟨'+' :: digits, false, congrArg (Option.map ('+' :: ·)) joined, rfl, rfl⟩
  | minus => exact ⟨'-' :: digits, true, congrArg (Option.map ('-' :: ·)) joined, rfl, rfl⟩

theorem integer?_of_integerText {text : String} {n : Int} (written : IntegerText text n) :
    integer? text = some n := by
  obtain ⟨chars, isBefore, isAfter, run, short, signs⟩ := written
  rename_i before sign digits after values
  obtain ⟨front, standsBefore, isFront⟩ := exists_blanks_of_padding isBefore
  obtain ⟨back, standsAfter, isBack⟩ := exists_blanks_of_padding isAfter
  obtain ⟨plain, stands, joined, notBlank⟩ := exists_plain_of_run run
  obtain ⟨standsSign, signNotBlank⟩ := signs.plain
  have isDigits : ∀ c ∈ values.map plainDigit, c.isDigit = true :=
    List.forall_mem_map.2 fun value member => (plainDigit_spec value (run.lt_ten value member)).1
  have nonempty : values.map plainDigit ≠ [] := by simpa using run.ne_nil
  obtain ⟨bare, negative, read, split, same⟩ := signs.read joined isDigits nonempty
  have mapped : text.toList.mapM plainChar? = some (front ++ (sign ++ plain) ++ back) := by
    rw [mapM_plainChar?_eq_some_iff, chars]
    exact List.rel_append (List.rel_append standsBefore (List.rel_append standsSign stands))
      standsAfter
  have trimmed : Text.trimBy isPlainBlank (front ++ (sign ++ plain) ++ back) = sign ++ plain := by
    rw [Text.trimBy_append isFront isBack]
    exact Text.trimBy_of_not (List.forall_mem_append.2 ⟨signNotBlank, notBlank⟩)
  have accepted : values.map plainDigit ≠ [] ∧ (values.map plainDigit).all Char.isDigit = true ∧
      (values.map plainDigit).length ≤ integerDigitLimit := by
    refine ⟨nonempty, List.all_eq_true.2 isDigits, ?_⟩
    rw [List.length_map]
    exact short
  rw [integer?, bareChars?, mapped, Option.bind_some, trimmed, read, Option.bind_some, split]
  dsimp only
  rw [if_pos accepted, natural_plainDigits run.lt_ten, same]

theorem integer?_eq_some_iff (text : String) (n : Int) :
    integer? text = some n ↔ IntegerText text n :=
  ⟨integerText_of_integer?, integer?_of_integerText⟩

end Calculator.Decimal
