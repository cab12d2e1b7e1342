/-!
# Character classes as ranges of code points

A class of characters is a list of closed intervals of code points, in
increasing order.
-/

namespace Calculator.Text

/-- The first and the last code point of an interval. -/
abbrev Ranges := List (Nat × Nat)

def Ranges.covers (ranges : Ranges) (c : Char) : Bool :=
  ranges.any fun range => range.1 ≤ c.toNat && c.toNat ≤ range.2

theorem Ranges.covers_iff (ranges : Ranges) (c : Char) :
    ranges.covers c = true ↔ ∃ range ∈ ranges, range.1 ≤ c.toNat ∧ c.toNat ≤ range.2 := by
  simp [Ranges.covers, List.any_eq_true]

end Calculator.Text
