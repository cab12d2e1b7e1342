import Calculator.Decimal.Shortest
import Calculator.Rule

/-!
# Arithmetic without refusals

Elementary operations may refuse their operands: a division by zero, a
square root of a negative number, a power out of range. The operations of
the catalog stand on them and follow the arithmetic of doubles instead: an
infinity where the result grows without bound and no number where there is
no result. They are given for any elementary operations, so that what they
need of those can be stated.
-/

namespace Calculator

/-- Elementary operations on doubles, each of which may refuse its operands. -/
structure Elementary where
  divide : Float → Float → Except ArithmeticFault Float
  power : Float → Float → Except ArithmeticFault Float
  sin : Float → Except ArithmeticFault Float
  cos : Float → Except ArithmeticFault Float
  tan : Float → Except ArithmeticFault Float
  sqrt : Float → Except ArithmeticFault Float
  log : Float → Except ArithmeticFault Float
  log2 : Float → Except ArithmeticFault Float
  log10 : Float → Except ArithmeticFault Float
  /-- The least integer not below the operand. -/
  ceil : Float → Except ArithmeticFault Float
  /-- The greatest integer not above the operand. -/
  floor : Float → Except ArithmeticFault Float

namespace Elementary

/-- Refuses a result that is no number unless the operand is none either. -/
def checked (f : Float → Float) (x : Float) : Except ArithmeticFault Float :=
  if (f x).isNaN && !x.isNaN then .error .domain else .ok (f x)

def checkedLog (f : Float → Float) (x : Float) : Except ArithmeticFault Float :=
  if x ≤ 0.0 then .error .domain else .ok (f x)

/-- Rounds to an integer, whose zero has no sign. -/
def checkedRound (f : Float → Float) (x : Float) : Except ArithmeticFault Float :=
  if x.isNaN then .error .domain
  else if x.isInf then .error .overflow
  else .ok (f x + 0.0)

def checkedDivide (left right : Float) : Except ArithmeticFault Float :=
  if right == 0.0 then .error .zeroDivision else .ok (left / right)

/-- Refuses a power of finite operands that is not finite. -/
def checkedPower (pow : Float → Float → Float) (base exponent : Float) :
    Except ArithmeticFault Float :=
  let result := pow base exponent
  if base.isFinite && exponent.isFinite && !result.isFinite then
    if result.isNaN || base == 0.0 then .error .domain else .error .overflow
  else .ok result

/-- The operations of the machine. -/
def machine : Elementary where
  divide := checkedDivide
  power := checkedPower Float.pow
  sin := checked Float.sin
  cos := checked Float.cos
  tan := checked Float.tan
  sqrt := checked Float.sqrt
  log := checkedLog Float.log
  log2 := checkedLog Float.log2
  log10 := checkedLog Float.log10
  ceil := checkedRound Float.ceil
  floor := checkedRound Float.floor

end Elementary

namespace Arithmetic

def infinity : Float := 1.0 / 0.0

def notANumber : Float := 0.0 / 0.0

def isNegative (x : Float) : Bool :=
  x.toBits >>> 63 == 1

def signedInfinity (negative : Bool) : Float :=
  if negative then -infinity else infinity

/-- The quotient of doubles; by a zero it is infinite with the product of both signs. -/
def divide (elementary : Elementary) (left right : Float) : Except ArithmeticFault Float :=
  if right == 0.0 then
    if left == 0.0 || left.isNaN then .ok notANumber
    else .ok (signedInfinity (isNegative left != isNegative right))
  else elementary.divide left right

/-- A finite double is an odd integer. -/
def isOddInteger (x : Float) : Bool :=
  let binary := Decimal.Binary.ofBits x.toBits
  let unit := Decimal.twoTo (-binary.exponent).toNat
  binary.exponent ≤ 0 && binary.mantissa % unit == 0 && binary.mantissa / unit % 2 == 1

/--
The power of doubles; out of range it is infinite, and negative for a negative base and an odd
exponent.
-/
def power (elementary : Elementary) (base exponent : Float) : Except ArithmeticFault Float :=
  match elementary.power base exponent with
  | .error .overflow => .ok (signedInfinity (base < 0.0 && isOddInteger exponent))
  | .error .domain => .ok (if base == 0.0 then infinity else notANumber)
  | outcome => outcome

def logOver (elementary : Elementary) (value base : Float) : Except ArithmeticFault Float := do
  elementary.divide (← elementary.log value) (← elementary.log base)

/-- The logarithm to a base, computed directly for the bases ten and two. -/
def log (elementary : Elementary) (value base : Float) : Except ArithmeticFault Float :=
  if value.isNaN || base.isNaN || value < 0.0 || base ≤ 0.0 || base == 1.0 then .ok notANumber
  else if value == 0.0 then .ok (signedInfinity (1.0 < base))
  else if value.isInf then .ok (signedInfinity !(1.0 < base))
  else if base == 10.0 then elementary.log10 value
  else if base == 2.0 then elementary.log2 value
  else logOver elementary value base

/-- Gives no number where an operation is out of its domain. -/
def orNaN (f : Float → Except ArithmeticFault Float) (x : Float) : Except ArithmeticFault Float :=
  match f x with
  | .error .domain => .ok notANumber
  | outcome => outcome

/-- Leaves what has no integer part as it is. -/
def round (f : Float → Except ArithmeticFault Float) (x : Float) : Except ArithmeticFault Float :=
  if x.isFinite then f x else .ok x

def sign (x : Float) : Float :=
  if x.isNaN then notANumber else if 0.0 < x then 1.0 else if x < 0.0 then -1.0 else 0.0

def minimum (x y : Float) : Float :=
  if x.isNaN || y.isNaN then notANumber else if y < x then y else x

def maximum (x y : Float) : Float :=
  if x.isNaN || y.isNaN then notANumber else if x < y then y else x

end Arithmetic

end Calculator
