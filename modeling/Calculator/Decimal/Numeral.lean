import Calculator.Text.Blank
import Calculator.Text.Digit

/-!
# Reading numerals

A numeral is an optional sign followed by digits with at most one point and
an optional exponent, or by one of the words for infinity and for no number.
Texts from outside may also surround it with blanks, separate its digits by
single underscores and use the decimal digits of any script.
-/

namespace Calculator.Decimal

/-- What a numeral denotes: `digits * 10 ^ exponent` or one of the special values. -/
inductive Numeral where
  | finite (negative : Bool) (digits : Nat) (exponent : Int)
  | infinite (negative : Bool)
  | nan
deriving Repr, DecidableEq

def natural (digits : List Char) : Nat :=
  digits.foldl (fun value c => 10 * value + (c.toNat - '0'.toNat)) 0

theorem natural_append_digit (digits : List Char) (c : Char) :
    natural (digits ++ [c]) = 10 * natural digits + (c.toNat - '0'.toNat) := by
  simp [natural]

/-- Splits a leading sign off; `true` stands for a minus. -/
def splitSign : List Char → Bool × List Char
  | '-' :: rest => (true, rest)
  | '+' :: rest => (false, rest)
  | chars => (false, chars)

def signed (negative : Bool) (value : Nat) : Int :=
  if negative then -value else value

/-- The exponent part of a numeral, zero when there is none. -/
def exponent? : List Char → Option Int
  | [] => some 0
  | c :: rest =>
      let (negative, digits) := splitSign rest
      if (c = 'e' ∨ c = 'E') ∧ digits ≠ [] ∧ digits.all Char.isDigit then
        some (signed negative (natural digits))
      else none

/-- The digits before the point, those after it, and the rest. -/
def splitPoint (chars : List Char) : List Char × List Char × List Char :=
  let whole := chars.takeWhile Char.isDigit
  match chars.dropWhile Char.isDigit with
  | '.' :: tail => (whole, tail.takeWhile Char.isDigit, tail.dropWhile Char.isDigit)
  | rest => (whole, [], rest)

namespace Numeral

def word? (negative : Bool) (chars : List Char) : Option Numeral :=
  let lower := String.ofList (chars.map Char.toLower)
  if lower = "inf" ∨ lower = "infinity" then some (.infinite negative)
  else if lower = "nan" then some .nan
  else none

def digits? (negative : Bool) (chars : List Char) : Option Numeral :=
  let (whole, fraction, rest) := splitPoint chars
  if whole = [] ∧ fraction = [] then none
  else (exponent? rest).map fun exponent =>
    .finite negative (natural (whole ++ fraction)) (exponent - fraction.length)

/-- Reads a numeral that uses the whole text and has no blanks and no underscores. -/
def ofChars? (chars : List Char) : Option Numeral :=
  let (negative, rest) := splitSign chars
  (digits? negative rest).orElse fun _ => word? negative rest

def negateIf (negative : Bool) (x : Float) : Float :=
  if negative then -x else x

/-- The nearest double. Exponents far outside its range are settled without computing the power. -/
def toFloat : Numeral → Float
  | .nan => 0.0 / 0.0
  | .infinite negative => negateIf negative (1.0 / 0.0)
  | .finite negative digits exponent =>
      let leading := exponent + (Nat.toDigits 10 digits).length
      negateIf negative
        (if digits = 0 ∨ leading < -340 then 0.0
        else if 400 < leading then 1.0 / 0.0
        else Float.ofScientific digits (decide (exponent < 0)) exponent.natAbs)

end Numeral

/-- The blanks of plain texts, which numerals may have at both ends. -/
def isPlainBlank (c : Char) : Bool :=
  c.toNat = 32 || (9 ≤ c.toNat && c.toNat ≤ 13)

/-- A blank or a decimal digit in its plain form; other characters of scripts are in no numeral. -/
def plainChar? (c : Char) : Option Char :=
  if c.toNat < 128 then some c
  else if Text.isBlank c then some ' '
  else (Text.decimalValue? c).map fun value => Char.ofNat ('0'.toNat + value)

/-- Drops underscores that stand between two digits; any other underscore is refused. -/
def joinDigits? (afterDigit : Bool) : List Char → Option (List Char)
  | [] => some []
  | c :: rest =>
      if c = '_' then
        if afterDigit && rest.head?.any Char.isDigit then joinDigits? false rest else none
      else (joinDigits? c.isDigit rest).map (c :: ·)

/-- The bare characters of a numeral from outside. -/
def bareChars? (text : String) : Option (List Char) :=
  (text.toList.mapM plainChar?).bind fun chars =>
    joinDigits? false (Text.trimBy isPlainBlank chars)

def float? (text : String) : Option Float :=
  ((bareChars? text).bind Numeral.ofChars?).map Numeral.toFloat

end Calculator.Decimal
