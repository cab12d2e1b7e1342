/-!
# Padded numbers

The digits of a number in a base, with zeros before them up to a width. A
number that needs more digits has all of them.
-/

namespace Calculator.Text

def padded (base width value : Nat) : List Char :=
  let digits := Nat.toDigits base value
  List.replicate (width - digits.length) '0' ++ digits

/-- The digits of a number after zeros that fill the width, and no more. -/
def Padded (base width value : Nat) (chars : List Char) : Prop :=
  ∃ zeros, chars = List.replicate zeros '0' ++ Nat.toDigits base value ∧
    chars.length = max width (Nat.toDigits base value).length

theorem padded_iff (base width value : Nat) (chars : List Char) :
    Padded base width value chars ↔ chars = padded base width value := by
  unfold padded
  constructor
  · rintro ⟨zeros, rfl, length⟩
    rw [List.length_append, List.length_replicate] at length
    have filled : zeros = width - (Nat.toDigits base value).length := by omega
    rw [filled]
  · rintro rfl
    refine ⟨_, rfl, ?_⟩
    rw [List.length_append, List.length_replicate]
    omega

end Calculator.Text
