import Calculator.Decimal.Shortest

/-!
# Integer parts

The integer part of a double is its value without the fraction, taken toward
zero and computed exactly.
-/

namespace Calculator.Decimal

def Binary.wholePart (x : Binary) : Nat :=
  x.mantissa * twoTo x.exponent.toNat / twoTo (-x.exponent).toNat

/-- The integer part of a finite double. -/
def truncate (x : Float) : Int :=
  let whole := (Binary.ofBits x.toBits).wholePart
  if x < 0.0 then -whole else whole

end Calculator.Decimal
