import Calculator.Decimal.Numeral

/-!
# Integers

Integers of any size are read from text in the manner of numerals, without
point and exponent, and are converted to the nearest double when they lie in
its range.
-/

namespace Calculator.Decimal

/-- Longer integers are refused. -/
def integerDigitLimit : Nat := 4300

def integer? (text : String) : Option Int :=
  (bareChars? text).bind fun chars =>
    let (negative, digits) := splitSign chars
    if digits ≠ [] ∧ digits.all Char.isDigit ∧ digits.length ≤ integerDigitLimit then
      some (signed negative (natural digits))
    else none

/-- The nearest double of an integer, if it is finite. -/
def double? (value : Int) : Option Float :=
  let x := Float.ofInt value
  if x.isInf then none else some x

/-- A number from outside: an integer of any size or a double. -/
inductive Quantity where
  | integer (value : Int)
  | double (x : Float)

def Quantity.toDouble? : Quantity → Option Float
  | .integer value => double? value
  | .double x => some x

end Calculator.Decimal
