import Calculator.Proofs.Display
import Calculator.Settings.Value
import Mathlib.Data.List.Forall2

/-!
# How values are shown

A value is shown as a literal of its kind: a text in quotes with escapes, a
moment by its parts, a list or a table by its values. A text or a moment that
stands alone is shown without quotes and names. An integer is shown only when
it has few enough digits, and so is everything that holds one.
-/

namespace Calculator

namespace Text

/-! ## Quoted texts -/

/-- The quote around a text: a double one if the text has single ones only. -/
inductive QuoteOf (chars : List Char) : Char → Prop where
  | double (single : '\x27' ∈ chars) (noDouble : '"' ∉ chars) : QuoteOf chars '"'
  | single (either : '\x27' ∉ chars ∨ '"' ∈ chars) : QuoteOf chars '\x27'

theorem quoteOf_iff (chars : List Char) (quote : Char) :
    QuoteOf chars quote ↔ quote = quoteFor chars := by
  have double : (chars.contains '\x27' && !chars.contains '"') = true ↔
      '\x27' ∈ chars ∧ '"' ∉ chars := by simp
  unfold quoteFor
  constructor
  · rintro (⟨single, noDouble⟩ | either)
    · rw [if_pos (double.2 ⟨single, noDouble⟩)]
    · rw [if_neg]
      rw [double]
      rintro ⟨single, noDouble⟩
      exact either.elim (· single) noDouble
  · rintro rfl
    split
    next both =>
      obtain ⟨single, noDouble⟩ := double.1 both
      exact .double single noDouble
    next either =>
      rw [double, not_and_or, not_not] at either
      exact .single either

/-- A character without an escape of its own. -/
def IsUnnamed (quote c : Char) : Prop :=
  c ∉ [quote, '\\', '\n', '\r', '\t']

/-- What stands for a character between quotes. -/
inductive Escapes (quote : Char) : Char → List Char → Prop where
  | quote : Escapes quote quote ['\\', quote]
  | backslash : Escapes quote '\\' ['\\', '\\']
  | line : Escapes quote '\n' ['\\', 'n']
  | carriage : Escapes quote '\r' ['\\', 'r']
  | tab : Escapes quote '\t' ['\\', 't']
  | printable {c : Char} (unnamed : IsUnnamed quote c) (printable : isPrintable c = true) :
      Escapes quote c [c]
  | two {c : Char} {digits : List Char} (unnamed : IsUnnamed quote c)
      (unprintable : isPrintable c = false) (small : c.toNat < 0x100)
      (padded : Padded 16 2 c.toNat digits) : Escapes quote c ('\\' :: 'x' :: digits)
  | four {c : Char} {digits : List Char} (unnamed : IsUnnamed quote c)
      (unprintable : isPrintable c = false) (large : 0x100 ≤ c.toNat) (small : c.toNat < 0x10000)
      (padded : Padded 16 4 c.toNat digits) : Escapes quote c ('\\' :: 'u' :: digits)
  | eight {c : Char} {digits : List Char} (unnamed : IsUnnamed quote c)
      (unprintable : isPrintable c = false) (large : 0x10000 ≤ c.toNat)
      (padded : Padded 16 8 c.toNat digits) : Escapes quote c ('\\' :: 'U' :: digits)

/-- Only characters without an escape of their own are printed or numbered. -/
theorem escapeChar_of_unnamed {quote c : Char} (unnamed : IsUnnamed quote c) :
    escapeChar quote c = if isPrintable c then [c] else numericEscape c := by
  simp only [IsUnnamed, List.mem_cons, List.not_mem_nil, or_false, not_or] at unnamed
  obtain ⟨notQuote, notBackslash, notLine, notCarriage, notTab⟩ := unnamed
  rw [escapeChar, if_neg (not_or.2 ⟨notQuote, notBackslash⟩), if_neg notLine, if_neg notCarriage,
    if_neg notTab]

theorem escapes_of_unnamed {quote c : Char} (unnamed : IsUnnamed quote c) :
    Escapes quote c (escapeChar quote c) := by
  rw [escapeChar_of_unnamed unnamed]
  split
  next printable => exact .printable unnamed printable
  next notPrintable =>
    have unprintable := Bool.eq_false_iff.2 notPrintable
    unfold numericEscape
    split
    next small => exact .two unnamed unprintable small ((padded_iff ..).2 rfl)
    next large =>
      split
      next small =>
        exact .four unnamed unprintable (Nat.not_lt.1 large) small ((padded_iff ..).2 rfl)
      next larger => exact .eight unnamed unprintable (Nat.not_lt.1 larger) ((padded_iff ..).2 rfl)

theorem escapes_iff {quote : Char} (isQuote : quote = '\x27' ∨ quote = '"') (c : Char)
    (chars : List Char) : escapeChar quote c = chars ↔ Escapes quote c chars := by
  have line : escapeChar quote '\n' = ['\\', 'n'] := by rcases isQuote with rfl | rfl <;> rfl
  have carriage : escapeChar quote '\r' = ['\\', 'r'] := by rcases isQuote with rfl | rfl <;> rfl
  have tab : escapeChar quote '\t' = ['\\', 't'] := by rcases isQuote with rfl | rfl <;> rfl
  constructor
  · rintro rfl
    by_cases unnamed : IsUnnamed quote c
    · exact escapes_of_unnamed unnamed
    · simp only [IsUnnamed, List.mem_cons, List.not_mem_nil, or_false, not_not] at unnamed
      rcases unnamed with rfl | rfl | rfl | rfl | rfl
      · rw [escapeChar, if_pos (.inl rfl)]
        exact .quote
      · rw [escapeChar, if_pos (.inr rfl)]
        exact .backslash
      · exact line ▸ .line
      · exact carriage ▸ .carriage
      · exact tab ▸ .tab
  · intro escapes
    cases escapes with
    | quote => rw [escapeChar, if_pos (.inl rfl)]
    | backslash => rw [escapeChar, if_pos (.inr rfl)]
    | line => exact line
    | carriage => exact carriage
    | tab => exact tab
    | printable unnamed printable => rw [escapeChar_of_unnamed unnamed, if_pos printable]
    | two unnamed unprintable small padded =>
        rw [escapeChar_of_unnamed unnamed, unprintable, if_neg Bool.false_ne_true, numericEscape,
          if_pos small, (padded_iff ..).1 padded]
    | four unnamed unprintable large small padded =>
        rw [escapeChar_of_unnamed unnamed, unprintable, if_neg Bool.false_ne_true, numericEscape,
          if_neg (Nat.not_lt.2 large), if_pos small, (padded_iff ..).1 padded]
    | eight unnamed unprintable large padded =>
        have notSmall : ¬ c.toNat < 0x100 := by omega
        rw [escapeChar_of_unnamed unnamed, unprintable, if_neg Bool.false_ne_true, numericEscape,
          if_neg notSmall, if_neg (Nat.not_lt.2 large), (padded_iff ..).1 padded]

/-- A text between quotes. -/
inductive Quotes (text : String) : String → Prop where
  | intro {quote : Char} {pieces : List (List Char)} (quoteOf : QuoteOf text.toList quote)
      (escapes : List.Forall₂ (Escapes quote) text.toList pieces) :
      Quotes text (String.ofList (quote :: pieces.flatten ++ [quote]))

theorem quotes_iff (text shown : String) : Quotes text shown ↔ shown = quoted text := by
  have isQuote : quoteFor text.toList = '\x27' ∨ quoteFor text.toList = '"' := by
    unfold quoteFor
    split
    · exact .inr rfl
    · exact .inl rfl
  have all (pieces : List (List Char)) :
      List.Forall₂ (Escapes (quoteFor text.toList)) text.toList pieces ↔
        text.toList.map (escapeChar (quoteFor text.toList)) = pieces := by
    rw [← List.forall₂_eq_eq_eq, List.forall₂_map_left_iff]
    simp only [escapes_iff isQuote]
  unfold quoted
  dsimp only
  rw [List.flatMap_def]
  constructor
  · rintro ⟨quoteOf, escapes⟩
    cases (quoteOf_iff _ _).1 quoteOf
    rw [(all _).1 escapes]
  · rintro rfl
    exact .intro ((quoteOf_iff _ _).2 rfl) ((all _).2 rfl)

end Text

namespace Settings

open Decimal (Displays displays_iff)
open Text (Padded padded_iff Quotes quotes_iff)

/-! ## Moments as literals -/

/-- The parts of a clock: the hour, the minute and those after them up to the last one not zero. -/
inductive ClockParts (clock : Clock) : List Nat → Prop where
  | minute (noSecond : clock.second = 0) (noFraction : clock.microsecond = 0) :
      ClockParts clock [clock.hour, clock.minute]
  | second (second : clock.second ≠ 0) (noFraction : clock.microsecond = 0) :
      ClockParts clock [clock.hour, clock.minute, clock.second]
  | microsecond (fraction : clock.microsecond ≠ 0) :
      ClockParts clock [clock.hour, clock.minute, clock.second, clock.microsecond]

theorem clockParts_iff (clock : Clock) (parts : List Nat) :
    ClockParts clock parts ↔ parts = clock.numbers := by
  unfold Clock.numbers
  constructor
  · rintro (⟨noSecond, noFraction⟩ | ⟨second, noFraction⟩ | fraction)
    · rw [if_neg (not_not.2 noFraction), if_neg (not_not.2 noSecond)]
    · rw [if_neg (not_not.2 noFraction), if_pos second]
    · rw [if_pos fraction]
  · rintro rfl
    split
    next fraction => exact .microsecond fraction
    next noFraction =>
      split
      next second => exact .second second (not_not.1 noFraction)
      next noSecond => exact .minute (not_not.1 noSecond) (not_not.1 noFraction)

/-- An offset from universal time, in seconds that count from the day before when it is behind. -/
inductive ZoneLiteral : Option Offset → List String → Prop where
  | none : ZoneLiteral none []
  | universal {offset : Offset} (zero : offset.minutes = 0) :
      ZoneLiteral (some offset) ["tzinfo=datetime.timezone.utc"]
  | ahead {offset : Offset} (positive : 0 < offset.minutes) :
      ZoneLiteral (some offset) ["tzinfo=datetime.timezone(datetime.timedelta(seconds=" ++
        toString (60 * offset.minutes) ++ "))"]
  | behind {offset : Offset} (negative : offset.minutes < 0) :
      ZoneLiteral (some offset) ["tzinfo=datetime.timezone(datetime.timedelta(days=-1, seconds=" ++
        toString (86400 + 60 * offset.minutes) ++ "))"]

theorem zoneLiteral_iff (offset? : Option Offset) (parts : List String) :
    ZoneLiteral offset? parts ↔
      parts = offset?.toList.map fun offset => "tzinfo=" ++ offset.literal := by
  cases offset? with
  | none =>
      constructor
      · rintro ⟨⟩
        rfl
      · rintro rfl
        exact .none
  | some offset =>
      have bound := offset.inRange
      change _ ↔ parts = ["tzinfo=" ++ offset.literal]
      unfold Offset.literal
      dsimp only
      rcases lt_trichotomy offset.minutes 0 with negative | zero | positive
      · have seconds : (60 * offset.minutes) % 86400 = 86400 + 60 * offset.minutes := by omega
        rw [if_neg negative.ne, if_pos negative, seconds]
        simp only [← String.append_assoc]
        constructor
        · rintro (_ | zero | positive | _)
          · omega
          · omega
          · rfl
        · rintro rfl
          exact .behind negative
      · rw [if_pos zero]
        constructor
        · rintro (_ | _ | positive | negative)
          · rfl
          · omega
          · omega
        · rintro rfl
          exact .universal zero
      · have seconds : (60 * offset.minutes) % 86400 = 60 * offset.minutes := by omega
        rw [if_neg positive.ne', if_neg (Int.not_lt.2 positive.le), seconds]
        simp only [← String.append_assoc]
        constructor
        · rintro (_ | zero | _ | negative)
          · omega
          · rfl
          · omega
        · rintro rfl
          exact .ahead positive

/-- A moment is a literal that names its parts, the larger ones first. -/
inductive MomentLiteral : Moment → String → Prop where
  | date (day : Date) : MomentLiteral (.date day) ("datetime.date(" ++
      ", ".intercalate ([day.year, day.month, day.day].map toString) ++ ")")
  | time {clock : Clock} {parts : List Nat} (clockParts : ClockParts clock parts) :
      MomentLiteral (.time clock) ("datetime.time(" ++
        ", ".intercalate (parts.map toString) ++ ")")
  | dateTime {day : Date} {clock : Clock} {offset? : Option Offset} {parts : List Nat}
      {zone : List String} (clockParts : ClockParts clock parts)
      (zoneLiteral : ZoneLiteral offset? zone) :
      MomentLiteral (.dateTime day clock offset?) ("datetime.datetime(" ++ ", ".intercalate
        ([day.year, day.month, day.day].map toString ++ parts.map toString ++ zone) ++ ")")

theorem momentLiteral_iff (moment : Moment) (shown : String) :
    MomentLiteral moment shown ↔ shown = moment.literal := by
  cases moment with
  | date day =>
      constructor
      · rintro ⟨⟩
        rfl
      · rintro rfl
        exact .date day
  | time clock =>
      constructor
      · rintro ⟨⟩
        rename_i clockParts
        rw [(clockParts_iff ..).1 clockParts]
        rfl
      · rintro rfl
        exact .time ((clockParts_iff ..).2 rfl)
  | dateTime day clock offset? =>
      unfold Moment.literal
      dsimp only
      rw [List.map_append]
      constructor
      · rintro ⟨⟩
        rename_i clockParts zoneLiteral
        rw [(clockParts_iff ..).1 clockParts, (zoneLiteral_iff ..).1 zoneLiteral]
        rfl
      · rintro rfl
        exact .dateTime ((clockParts_iff ..).2 rfl) ((zoneLiteral_iff ..).2 rfl)

/-! ## Moments as texts -/

/-- A day with the year first. -/
inductive DateText (date : Date) : List Char → Prop where
  | intro {year month day : List Char} (yearText : Padded 10 4 date.year year)
      (monthText : Padded 10 2 date.month month) (dayText : Padded 10 2 date.day day) :
      DateText date (year ++ '-' :: month ++ '-' :: day)

theorem dateText_iff (date : Date) (chars : List Char) :
    DateText date chars ↔ chars = date.text := by
  constructor
  · rintro ⟨year, month, day⟩
    rw [(padded_iff ..).1 year, (padded_iff ..).1 month, (padded_iff ..).1 day]
    rfl
  · rintro rfl
    exact .intro ((padded_iff ..).2 rfl) ((padded_iff ..).2 rfl) ((padded_iff ..).2 rfl)

/-- A clock with its second, and with a fraction of six digits if that is not zero. -/
inductive ClockText (clock : Clock) : List Char → Prop where
  | whole {hour minute second : List Char} (hourText : Padded 10 2 clock.hour hour)
      (minuteText : Padded 10 2 clock.minute minute) (secondText : Padded 10 2 clock.second second)
      (noFraction : clock.microsecond = 0) :
      ClockText clock (hour ++ ':' :: minute ++ ':' :: second)
  | fraction {hour minute second fraction : List Char} (hourText : Padded 10 2 clock.hour hour)
      (minuteText : Padded 10 2 clock.minute minute) (secondText : Padded 10 2 clock.second second)
      (fractionText : Padded 10 6 clock.microsecond fraction) (nonzero : clock.microsecond ≠ 0) :
      ClockText clock (hour ++ ':' :: minute ++ ':' :: second ++ '.' :: fraction)

theorem clockText_iff (clock : Clock) (chars : List Char) :
    ClockText clock chars ↔ chars = clock.text := by
  unfold Clock.text
  constructor
  · rintro (⟨hour, minute, second, none⟩ | ⟨hour, minute, second, fraction, some⟩)
    · rw [if_pos none, (padded_iff ..).1 hour, (padded_iff ..).1 minute,
        (padded_iff ..).1 second, List.append_nil]
    · rw [if_neg some, (padded_iff ..).1 hour, (padded_iff ..).1 minute,
        (padded_iff ..).1 second, (padded_iff ..).1 fraction]
  · rintro rfl
    have hour := (padded_iff 10 2 clock.hour _).2 rfl
    have minute := (padded_iff 10 2 clock.minute _).2 rfl
    have second := (padded_iff 10 2 clock.second _).2 rfl
    split
    next none =>
      rw [List.append_nil]
      exact .whole hour minute second none
    next some =>
      have fraction := ClockText.fraction hour minute second ((padded_iff ..).2 rfl) some
      simpa only [List.append_assoc, List.cons_append] using fraction

/-- An offset from universal time, with its sign, in hours and minutes. -/
inductive ZoneText : Option Offset → List Char → Prop where
  | none : ZoneText none []
  | ahead {offset : Offset} {hour minute : List Char} (notBehind : 0 ≤ offset.minutes)
      (hourText : Padded 10 2 (offset.minutes.natAbs / 60) hour)
      (minuteText : Padded 10 2 (offset.minutes.natAbs % 60) minute) :
      ZoneText (some offset) ('+' :: hour ++ ':' :: minute)
  | behind {offset : Offset} {hour minute : List Char} (behind : offset.minutes < 0)
      (hourText : Padded 10 2 (offset.minutes.natAbs / 60) hour)
      (minuteText : Padded 10 2 (offset.minutes.natAbs % 60) minute) :
      ZoneText (some offset) ('-' :: hour ++ ':' :: minute)

theorem zoneText_iff (offset? : Option Offset) (chars : List Char) :
    ZoneText offset? chars ↔ chars = offset?.elim [] Offset.text := by
  cases offset? with
  | none =>
      constructor
      · rintro ⟨⟩
        rfl
      · rintro rfl
        exact .none
  | some offset =>
      change _ ↔ chars = offset.text
      unfold Offset.text
      constructor
      · rintro (_ | ⟨notBehind, hour, minute⟩ | ⟨behind, hour, minute⟩)
        · rw [if_neg (Int.not_lt.2 notBehind), (padded_iff ..).1 hour, (padded_iff ..).1 minute]
        · rw [if_pos behind, (padded_iff ..).1 hour, (padded_iff ..).1 minute]
      · rintro rfl
        have hour := (padded_iff 10 2 (offset.minutes.natAbs / 60) _).2 rfl
        have minute := (padded_iff 10 2 (offset.minutes.natAbs % 60) _).2 rfl
        split
        next behind => exact .behind behind hour minute
        next notBehind => exact .ahead (Int.not_lt.1 notBehind) hour minute

/-- A moment as a text has its day before its clock, and its offset last. -/
inductive MomentText : Moment → List Char → Prop where
  | date {day : Date} {chars : List Char} (dateText : DateText day chars) :
      MomentText (.date day) chars
  | time {clock : Clock} {chars : List Char} (clockText : ClockText clock chars) :
      MomentText (.time clock) chars
  | dateTime {day : Date} {clock : Clock} {offset? : Option Offset} {front back zone : List Char}
      (dateText : DateText day front) (clockText : ClockText clock back)
      (zoneText : ZoneText offset? zone) :
      MomentText (.dateTime day clock offset?) (front ++ ' ' :: back ++ zone)

theorem momentText_iff (moment : Moment) (chars : List Char) :
    MomentText moment chars ↔ String.ofList chars = moment.text := by
  cases moment with
  | date day =>
      change _ ↔ String.ofList chars = String.ofList day.text
      rw [String.ofList_inj, ← dateText_iff]
      constructor
      · rintro ⟨dateText⟩
        exact dateText
      · exact .date
  | time clock =>
      change _ ↔ String.ofList chars = String.ofList clock.text
      rw [String.ofList_inj, ← clockText_iff]
      constructor
      · rintro ⟨_⟩
        assumption
      · exact .time
  | dateTime day clock offset? =>
      unfold Moment.text
      dsimp only
      rw [String.ofList_inj]
      constructor
      · rintro ⟨⟩
        rename_i dateText clockText zoneText
        rw [(dateText_iff ..).1 dateText, (clockText_iff ..).1 clockText,
          (zoneText_iff ..).1 zoneText]
      · rintro rfl
        exact .dateTime ((dateText_iff ..).2 rfl) ((clockText_iff ..).2 rfl)
          ((zoneText_iff ..).2 rfl)

/-! ## Values -/

mutual

/-- A value as it would be written. An integer with more than 4300 digits is not written. -/
inductive Literal : Value → String → Prop where
  | yes : Literal (.boolean true) "True"
  | no : Literal (.boolean false) "False"
  | integer {n : Int} (short : (Nat.toDigits 10 n.natAbs).length ≤ 4300) :
      Literal (.integer n) (toString n)
  | float {x : Float} {chars : List Char} (displays : Displays x chars) :
      Literal (.float x) (String.ofList chars)
  | text {text shown : String} (quotes : Quotes text shown) : Literal (.text text) shown
  | moment {moment : Moment} {shown : String} (literal : MomentLiteral moment shown) :
      Literal (.moment moment) shown
  | list {values : List Value} {shown : List String} (literals : Literals values shown) :
      Literal (.list values) ("[" ++ ", ".intercalate shown ++ "]")
  | table {entries : List (String × Value)} {shown : List String}
      (literals : EntryLiterals entries shown) :
      Literal (.table entries) ("\x7b" ++ ", ".intercalate shown ++ "\x7d")

inductive Literals : List Value → List String → Prop where
  | nil : Literals [] []
  | cons {value : Value} {rest : List Value} {shown : String} {others : List String}
      (literal : Literal value shown) (literals : Literals rest others) :
      Literals (value :: rest) (shown :: others)

/-- The entries of a table, each with its key in quotes. -/
inductive EntryLiterals : List (String × Value) → List String → Prop where
  | nil : EntryLiterals [] []
  | cons {key : String} {value : Value} {rest : List (String × Value)} {name shown : String}
      {others : List String} (quotes : Quotes key name) (literal : Literal value shown)
      (literals : EntryLiterals rest others) :
      EntryLiterals ((key, value) :: rest) ((name ++ ": " ++ shown) :: others)

end

theorem length_toDigits_le_iff (n : Nat) {limit : Nat} (positive : 0 < limit) :
    (Nat.toDigits 10 n).length ≤ limit ↔ n < Decimal.tenTo limit :=
  Nat.length_toDigits_le_iff (by decide) positive

theorem isShowable_integer_iff (n : Int) :
    (Value.integer n).isShowable = true ↔ n.natAbs < Decimal.tenTo Decimal.integerDigitLimit := by
  unfold Value.isShowable
  exact decide_eq_true_iff

mutual

theorem literal_iff (value : Value) (shown : String) :
    Literal value shown ↔ value.isShowable = true ∧ shown = value.literal := by
  match value with
  | .boolean true =>
      constructor
      · rintro ⟨⟩
        exact ⟨rfl, rfl⟩
      · rintro ⟨-, rfl⟩
        exact .yes
  | .boolean false =>
      constructor
      · rintro ⟨⟩
        exact ⟨rfl, rfl⟩
      · rintro ⟨-, rfl⟩
        exact .no
  | .integer n =>
      have short : (Nat.toDigits 10 n.natAbs).length ≤ 4300 ↔ (Value.integer n).isShowable = true :=
        (length_toDigits_le_iff n.natAbs (by decide)).trans (isShowable_integer_iff n).symm
      constructor
      · rintro ⟨⟩
        exact ⟨short.1 ‹_›, rfl⟩
      · rintro ⟨showable, rfl⟩
        exact .integer (short.2 showable)
  | .float x =>
      constructor
      · rintro ⟨⟩
        exact ⟨rfl, (displays_iff ..).1 ‹_›⟩
      · rintro ⟨-, rfl⟩
        have literal := Literal.float ((displays_iff x _).2 String.ofList_toList)
        rwa [String.ofList_toList] at literal
  | .text text =>
      constructor
      · rintro ⟨⟩
        exact ⟨rfl, (quotes_iff ..).1 ‹_›⟩
      · rintro ⟨-, rfl⟩
        exact .text ((quotes_iff ..).2 rfl)
  | .moment moment =>
      constructor
      · rintro ⟨⟩
        exact ⟨rfl, (momentLiteral_iff ..).1 ‹_›⟩
      · rintro ⟨-, rfl⟩
        exact .moment ((momentLiteral_iff ..).2 rfl)
  | .list values =>
      constructor
      · rintro ⟨⟩
        obtain ⟨showable, rfl⟩ := (literals_iff values _).1 ‹_›
        exact ⟨showable, rfl⟩
      · rintro ⟨showable, rfl⟩
        exact .list ((literals_iff values _).2 ⟨showable, rfl⟩)
  | .table entries =>
      constructor
      · rintro ⟨⟩
        obtain ⟨showable, rfl⟩ := (entryLiterals_iff entries _).1 ‹_›
        exact ⟨showable, rfl⟩
      · rintro ⟨showable, rfl⟩
        exact .table ((entryLiterals_iff entries _).2 ⟨showable, rfl⟩)

theorem literals_iff (values : List Value) (shown : List String) :
    Literals values shown ↔ Value.areShowable values = true ∧ shown = Value.literals values := by
  match values with
  | [] =>
      constructor
      · rintro ⟨⟩
        exact ⟨rfl, rfl⟩
      · rintro ⟨-, rfl⟩
        exact .nil
  | value :: rest =>
      rw [Value.areShowable, Value.literals, Bool.and_eq_true]
      constructor
      · rintro ⟨⟩
        obtain ⟨first, rfl⟩ := (literal_iff value _).1 ‹_›
        obtain ⟨later, rfl⟩ := (literals_iff rest _).1 ‹_›
        exact ⟨⟨first, later⟩, rfl⟩
      · rintro ⟨⟨first, later⟩, rfl⟩
        exact .cons ((literal_iff value _).2 ⟨first, rfl⟩) ((literals_iff rest _).2 ⟨later, rfl⟩)

theorem entryLiterals_iff (entries : List (String × Value)) (shown : List String) :
    EntryLiterals entries shown ↔
      Value.entriesShowable entries = true ∧ shown = Value.entryLiterals entries := by
  match entries with
  | [] =>
      constructor
      · rintro ⟨⟩
        exact ⟨rfl, rfl⟩
      · rintro ⟨-, rfl⟩
        exact .nil
  | (key, value) :: rest =>
      rw [Value.entriesShowable, Value.entryLiterals, Bool.and_eq_true]
      constructor
      · rintro ⟨⟩
        rename_i quotes literal literals
        obtain ⟨first, rfl⟩ := (literal_iff value _).1 literal
        obtain ⟨later, rfl⟩ := (entryLiterals_iff rest _).1 literals
        rw [(quotes_iff ..).1 quotes]
        exact ⟨⟨first, later⟩, rfl⟩
      · rintro ⟨⟨first, later⟩, rfl⟩
        exact .cons ((quotes_iff ..).2 rfl) ((literal_iff value _).2 ⟨first, rfl⟩)
          ((entryLiterals_iff rest _).2 ⟨later, rfl⟩)

end

/-- The text of a value: a text as it is, a moment as a text, and any other value as a literal. -/
inductive TextOf : Value → String → Prop where
  | text (text : String) : TextOf (.text text) text
  | moment {moment : Moment} {chars : List Char} (momentText : MomentText moment chars) :
      TextOf (.moment moment) (String.ofList chars)
  | other {value : Value} {shown : String} (notText : ∀ text, value ≠ .text text)
      (notMoment : ∀ moment, value ≠ .moment moment) (literal : Literal value shown) :
      TextOf value shown

theorem textOf_iff (value : Value) (shown : String) :
    TextOf value shown ↔ value.isShowable = true ∧ shown = value.plain := by
  have plain {value : Value} (notText : ∀ text, value ≠ .text text)
      (notMoment : ∀ moment, value ≠ .moment moment) : value.plain = value.literal := by
    unfold Value.plain
    split
    · exact absurd rfl (notText _)
    · exact absurd rfl (notMoment _)
    · rfl
  constructor
  · rintro (text | momentText | ⟨notText, notMoment, literal⟩)
    · exact ⟨rfl, rfl⟩
    · exact ⟨rfl, (momentText_iff ..).1 momentText⟩
    · rw [plain notText notMoment]
      exact (literal_iff ..).1 literal
  · rintro ⟨showable, rfl⟩
    by_cases isText : ∃ text, value = .text text
    · obtain ⟨text, rfl⟩ := isText
      exact .text text
    by_cases isMoment : ∃ moment, value = .moment moment
    · obtain ⟨moment, rfl⟩ := isMoment
      have text := TextOf.moment ((momentText_iff moment _).2 String.ofList_toList)
      rwa [String.ofList_toList] at text
    rw [not_exists] at isText isMoment
    rw [plain isText isMoment]
    exact .other isText isMoment ((literal_iff ..).2 ⟨showable, rfl⟩)

end Settings

end Calculator
