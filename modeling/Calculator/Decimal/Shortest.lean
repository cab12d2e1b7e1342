/-!
# The shortest decimal of a double

A finite double stands for every real that rounds to it. The shortest
decimal is the one with the fewest significant digits in that interval, and
among those the nearest to the double. The search walks over the decimal
grids from coarse to fine and tests the two neighbours of the double on each
by exact arithmetic on natural numbers.
-/

namespace Calculator.Decimal

def twoTo (exponent : Nat) : Nat := Nat.pow 2 exponent

def tenTo (exponent : Nat) : Nat := Nat.pow 10 exponent

/-- The value `mantissa * 2 ^ exponent` of a finite double without its sign. -/
structure Binary where
  mantissa : Nat
  exponent : Int
  /-- The gap to the double below is half the gap to the double above. -/
  narrowBelow : Bool

/-- Decodes the bits of a finite double; the sign bit is left out. -/
def Binary.ofBits (bits : UInt64) : Binary :=
  let biased := ((bits >>> 52) &&& 0x7FF).toNat
  let fraction := (bits &&& 0xFFFFFFFFFFFFF).toNat
  if biased = 0 then ⟨fraction, -1074, false⟩
  else ⟨twoTo 52 + fraction, (biased : Int) - 1075, fraction == 0 && 1 < biased⟩

/-- The value `digits * 10 ^ exponent`. -/
structure Scaled where
  digits : Nat
  exponent : Int
deriving Repr, DecidableEq

/-- Compares a decimal with `mantissa * 2 ^ exponent`, exactly. -/
def Scaled.compareBinary (decimal : Scaled) (mantissa : Nat) (exponent : Int) : Ordering :=
  compare (decimal.digits * tenTo decimal.exponent.toNat * twoTo (-exponent).toNat)
    (mantissa * twoTo exponent.toNat * tenTo (-decimal.exponent).toNat)

/-- The decimal lies among the reals that round to the double, a tie going to the even mantissa. -/
def Binary.readsBack (x : Binary) (decimal : Scaled) : Bool :=
  let below := if x.narrowBelow then 4 * x.mantissa - 1 else 4 * x.mantissa - 2
  let above := 4 * x.mantissa + 2
  let closed := x.mantissa % 2 == 0
  let low := decimal.compareBinary below (x.exponent - 2)
  let high := decimal.compareBinary above (x.exponent - 2)
  (low == .gt || (closed && low == .eq)) && (high == .lt || (closed && high == .eq))

/-- The least power of ten above a positive double, found near its binary logarithm. -/
def Binary.magnitude (x : Binary) : Int :=
  let estimate := Int.fdiv ((x.mantissa.log2 + x.exponent) * 30103) 100000
  let candidates := [estimate - 1, estimate, estimate + 1, estimate + 2]
  let above (power : Int) : Bool := (Scaled.mk 1 power).compareBinary x.mantissa x.exponent == .gt
  (candidates.find? above).getD (estimate + 3)

/-- The double in units of `10 ^ grid`, as a quotient of natural numbers. -/
def Binary.onGrid (x : Binary) (grid : Int) : Nat × Nat :=
  (x.mantissa * twoTo x.exponent.toNat * tenTo (-grid).toNat,
    twoTo (-x.exponent).toNat * tenTo grid.toNat)

/-- The nearer of the two neighbours on a grid that read back; a tie goes to the even one. -/
def Binary.nearest? (x : Binary) (grid : Int) : Option Scaled :=
  let (numerator, denominator) := x.onGrid grid
  let floor := numerator / denominator
  let lower : Scaled := ⟨floor, grid⟩
  let upper : Scaled := ⟨floor + 1, grid⟩
  match x.readsBack lower, x.readsBack upper with
  | false, false => none
  | true, false => some lower
  | false, true => some upper
  | true, true =>
      match compare (2 * numerator) ((2 * floor + 1) * denominator) with
      | .lt => some lower
      | .gt => some upper
      | .eq => some (if floor % 2 = 0 then lower else upper)

/-- Every digit of `mantissa * 2 ^ exponent`. -/
def Binary.exact (x : Binary) : Scaled :=
  ⟨x.mantissa * twoTo x.exponent.toNat * Nat.pow 5 (-x.exponent).toNat,
    -((-x.exponent).toNat : Int)⟩

/-- Moves the trailing zeros of the digits into the exponent. -/
def Scaled.stripZeros (decimal : Scaled) : Scaled :=
  if divides : 0 < decimal.digits ∧ decimal.digits % 10 = 0 then
    stripZeros ⟨decimal.digits / 10, decimal.exponent + 1⟩
  else decimal
termination_by decimal.digits
decreasing_by omega

/-- The shortest decimal of a positive double. -/
def Binary.shortest (x : Binary) : Scaled :=
  let grids := (List.range 17).map fun (count : Nat) => x.magnitude - (count + 1)
  ((grids.findSome? x.nearest?).getD x.exact).stripZeros

end Calculator.Decimal
