import Calculator.Decimal.Shortest
import Calculator.Text.Padded

/-!
# Texts of doubles

A layout decides which decimal exponents are written with a plain point and
how wide the exponent of the others is. Every text shows the shortest digits
that read back, and a plain one at least one digit on each side of the point.
-/

namespace Calculator.Decimal

structure Layout where
  /-- The least exponent of a leading digit that is written with a plain point. -/
  plainFrom : Int
  /-- The least exponent above those that are written with a plain point. -/
  plainBelow : Int
  /-- The least number of digits of a written exponent. -/
  exponentWidth : Nat

/-- How values and literals are shown: a plain point from `0.0001` up to sixteen digits. -/
def Layout.display : Layout := ⟨-4, 16, 2⟩

namespace Layout

def point (digits : List Char) (exponent : Int) : List Char :=
  let places := (-exponent).toNat
  if 0 ≤ exponent then digits ++ List.replicate exponent.toNat '0' ++ ['.', '0']
  else if places < digits.length then
    digits.take (digits.length - places) ++ '.' :: digits.drop (digits.length - places)
  else '0' :: '.' :: List.replicate (places - digits.length) '0' ++ digits

def power (layout : Layout) (exponent : Int) : List Char :=
  'e' :: (if exponent < 0 then '-' else '+') ::
    Text.padded 10 layout.exponentWidth exponent.natAbs

def scientific (layout : Layout) (digits : List Char) (leading : Int) : List Char :=
  digits.take 1 ++ (if digits.length ≤ 1 then [] else '.' :: digits.drop 1) ++ layout.power leading

def decimal (layout : Layout) (value : Scaled) : List Char :=
  let digits := Nat.toDigits 10 value.digits
  let leading := value.exponent + digits.length - 1
  if layout.plainFrom ≤ leading ∧ leading < layout.plainBelow then point digits value.exponent
  else layout.scientific digits leading

/-- A finite value without its sign. -/
def magnitude (layout : Layout) (x : Binary) : List Char :=
  if x.mantissa = 0 then ['0', '.', '0'] else layout.decimal x.shortest

def text (layout : Layout) (x : Float) : String :=
  let sign := if x.toBits >>> 63 = 1 then ['-'] else []
  if x.isNaN then "nan"
  else if x.isInf then String.ofList (sign ++ ['i', 'n', 'f'])
  else String.ofList (sign ++ layout.magnitude (Binary.ofBits x.toBits))

end Layout

end Calculator.Decimal
