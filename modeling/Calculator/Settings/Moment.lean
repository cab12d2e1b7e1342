import Calculator.Text.Padded

/-!
# Dates and times

A configuration file may hold a day, a time of day, or both together, then
with an offset from universal time or without one. A day is one of the
calendar, and an offset is shorter than a day. As a literal a moment names
its parts; as a text it is written with the larger units first.
-/

namespace Calculator.Settings

def isLeap (year : Nat) : Bool :=
  year % 4 = 0 && (year % 100 ≠ 0 || year % 400 = 0)

def daysIn (year month : Nat) : Nat :=
  if month = 2 then (if isLeap year then 29 else 28)
  else if month ∈ [4, 6, 9, 11] then 30
  else 31

structure Date where
  year : Nat
  month : Nat
  day : Nat
  yearInRange : 1 ≤ year ∧ year ≤ 9999
  monthInRange : 1 ≤ month ∧ month ≤ 12
  dayInRange : 1 ≤ day ∧ day ≤ daysIn year month

structure Clock where
  hour : Nat
  minute : Nat
  second : Nat
  microsecond : Nat
  inRange : hour < 24 ∧ minute < 60 ∧ second < 60 ∧ microsecond < 1000000

/-- Minutes by which a clock is ahead of universal time. -/
structure Offset where
  minutes : Int
  inRange : minutes.natAbs < 24 * 60

inductive Moment where
  | date (day : Date)
  | time (clock : Clock)
  | dateTime (day : Date) (clock : Clock) (offset? : Option Offset)

/-! ## Literals -/

def Date.numbers (date : Date) : List Nat :=
  [date.year, date.month, date.day]

/-- The parts of a clock without the zeros at the end, but for the hour and the minute. -/
def Clock.numbers (clock : Clock) : List Nat :=
  clock.hour :: clock.minute ::
    (if clock.microsecond ≠ 0 then [clock.second, clock.microsecond]
    else if clock.second ≠ 0 then [clock.second]
    else [])

/-- A difference of times is shown as days, which may be negative, and seconds of the last day. -/
def Offset.literal (offset : Offset) : String :=
  let seconds := "seconds=" ++ toString ((60 * offset.minutes) % 86400) ++ "))"
  if offset.minutes = 0 then "datetime.timezone.utc"
  else if offset.minutes < 0 then "datetime.timezone(datetime.timedelta(days=-1, " ++ seconds
  else "datetime.timezone(datetime.timedelta(" ++ seconds

def Moment.literal : Moment → String
  | .date day => shown "date" (day.numbers.map toString)
  | .time clock => shown "time" (clock.numbers.map toString)
  | .dateTime day clock offset? =>
      let zone := offset?.toList.map fun offset => "tzinfo=" ++ offset.literal
      shown "datetime" ((day.numbers ++ clock.numbers).map toString ++ zone)
where
  shown (kind : String) (parts : List String) : String :=
    "datetime." ++ kind ++ "(" ++ ", ".intercalate parts ++ ")"

/-! ## Texts -/

def Date.text (date : Date) : List Char :=
  Text.padded 10 4 date.year ++ '-' :: Text.padded 10 2 date.month ++
    '-' :: Text.padded 10 2 date.day

def Clock.text (clock : Clock) : List Char :=
  Text.padded 10 2 clock.hour ++ ':' :: Text.padded 10 2 clock.minute ++
    ':' :: Text.padded 10 2 clock.second ++
      (if clock.microsecond = 0 then [] else '.' :: Text.padded 10 6 clock.microsecond)

def Offset.text (offset : Offset) : List Char :=
  (if offset.minutes < 0 then '-' else '+') :: Text.padded 10 2 (offset.minutes.natAbs / 60) ++
    ':' :: Text.padded 10 2 (offset.minutes.natAbs % 60)

def Moment.text : Moment → String
  | .date day => String.ofList day.text
  | .time clock => String.ofList clock.text
  | .dateTime day clock offset? =>
      String.ofList (day.text ++ ' ' :: clock.text ++ offset?.elim [] Offset.text)

end Calculator.Settings
