import Calculator.Text.Ranges

/-!
# Digits of all scripts

A digit is a character whose numeric type is decimal or digit, such as a
superscript two or a circled one. Decimal digits come in runs of ten and
have a value; the other digits have none here.
-/

namespace Calculator.Text

def digits : Ranges :=
  [(0x0030, 0x0039), (0x00B2, 0x00B3), (0x00B9, 0x00B9), (0x0660, 0x0669), (0x06F0, 0x06F9),
   (0x07C0, 0x07C9), (0x0966, 0x096F), (0x09E6, 0x09EF), (0x0A66, 0x0A6F), (0x0AE6, 0x0AEF),
   (0x0B66, 0x0B6F), (0x0BE6, 0x0BEF), (0x0C66, 0x0C6F), (0x0CE6, 0x0CEF), (0x0D66, 0x0D6F),
   (0x0DE6, 0x0DEF), (0x0E50, 0x0E59), (0x0ED0, 0x0ED9), (0x0F20, 0x0F29), (0x1040, 0x1049),
   (0x1090, 0x1099), (0x1369, 0x1371), (0x17E0, 0x17E9), (0x1810, 0x1819), (0x1946, 0x194F),
   (0x19D0, 0x19DA), (0x1A80, 0x1A89), (0x1A90, 0x1A99), (0x1B50, 0x1B59), (0x1BB0, 0x1BB9),
   (0x1C40, 0x1C49), (0x1C50, 0x1C59), (0x2070, 0x2070), (0x2074, 0x2079), (0x2080, 0x2089),
   (0x2460, 0x2468), (0x2474, 0x247C), (0x2488, 0x2490), (0x24EA, 0x24EA), (0x24F5, 0x24FD),
   (0x24FF, 0x24FF), (0x2776, 0x277E), (0x2780, 0x2788), (0x278A, 0x2792), (0xA620, 0xA629),
   (0xA8D0, 0xA8D9), (0xA900, 0xA909), (0xA9D0, 0xA9D9), (0xA9F0, 0xA9F9), (0xAA50, 0xAA59),
   (0xABF0, 0xABF9), (0xFF10, 0xFF19), (0x104A0, 0x104A9), (0x10A40, 0x10A43),
   (0x10D30, 0x10D39), (0x10E60, 0x10E68), (0x11052, 0x1105A), (0x11066, 0x1106F),
   (0x110F0, 0x110F9), (0x11136, 0x1113F), (0x111D0, 0x111D9), (0x112F0, 0x112F9),
   (0x11450, 0x11459), (0x114D0, 0x114D9), (0x11650, 0x11659), (0x116C0, 0x116C9),
   (0x11730, 0x11739), (0x118E0, 0x118E9), (0x11950, 0x11959), (0x11C50, 0x11C59),
   (0x11D50, 0x11D59), (0x11DA0, 0x11DA9), (0x16A60, 0x16A69), (0x16AC0, 0x16AC9),
   (0x16B50, 0x16B59), (0x1D7CE, 0x1D7FF), (0x1E140, 0x1E149), (0x1E2F0, 0x1E2F9),
   (0x1E950, 0x1E959), (0x1F100, 0x1F10A), (0x1FBF0, 0x1FBF9)]

def isDigit (c : Char) : Bool :=
  digits.covers c

/-- The zeros of all runs of decimal digits. -/
def decimalZeros : List Nat :=
  [0x0030, 0x0660, 0x06F0, 0x07C0, 0x0966, 0x09E6, 0x0A66, 0x0AE6, 0x0B66, 0x0BE6, 0x0C66,
   0x0CE6, 0x0D66, 0x0DE6, 0x0E50, 0x0ED0, 0x0F20, 0x1040, 0x1090, 0x17E0, 0x1810, 0x1946,
   0x19D0, 0x1A80, 0x1A90, 0x1B50, 0x1BB0, 0x1C40, 0x1C50, 0xA620, 0xA8D0, 0xA900, 0xA9D0,
   0xA9F0, 0xAA50, 0xABF0, 0xFF10, 0x104A0, 0x10D30, 0x11066, 0x110F0, 0x11136, 0x111D0,
   0x112F0, 0x11450, 0x114D0, 0x11650, 0x116C0, 0x11730, 0x118E0, 0x11950, 0x11C50, 0x11D50,
   0x11DA0, 0x16A60, 0x16AC0, 0x16B50, 0x1D7CE, 0x1D7D8, 0x1D7E2, 0x1D7EC, 0x1D7F6, 0x1E140,
   0x1E2F0, 0x1E950, 0x1FBF0]

def decimalValue? (c : Char) : Option Nat :=
  (decimalZeros.find? fun first => first ≤ c.toNat && c.toNat < first + 10).map (c.toNat - ·)

/-- A decimal digit of some script and its value. -/
def IsDecimal (c : Char) (value : Nat) : Prop :=
  ∃ first ∈ decimalZeros, c.toNat = first + value ∧ value < 10

theorem IsDecimal.lt {c : Char} {value : Nat} (decimal : IsDecimal c value) : value < 10 := by
  obtain ⟨_, _, _, digit⟩ := decimal
  exact digit

/-- Two runs of ten digits do not overlap. -/
theorem decimalZeros_apart : ∀ first ∈ decimalZeros, ∀ other ∈ decimalZeros, first ≠ other →
    first + 10 ≤ other ∨ other + 10 ≤ first := by
  decide +kernel

theorem IsDecimal.unique {c : Char} {value other : Nat} (decimal : IsDecimal c value)
    (same : IsDecimal c other) : value = other := by
  obtain ⟨first, member, place, digit⟩ := decimal
  obtain ⟨second, another, samePlace, sameDigit⟩ := same
  by_cases run : first = second
  · omega
  · have apart := decimalZeros_apart first member second another run
    omega

theorem decimalValue?_eq_some_iff (c : Char) (value : Nat) :
    decimalValue? c = some value ↔ IsDecimal c value := by
  have found {value : Nat} (known : decimalValue? c = some value) : IsDecimal c value := by
    obtain ⟨first, run, rfl⟩ := Option.map_eq_some_iff.1 known
    have bounds := List.find?_some run
    simp only [Bool.and_eq_true, decide_eq_true_eq] at bounds
    exact ⟨first, List.mem_of_find?_eq_some run, by omega, by omega⟩
  refine ⟨found, ?_⟩
  intro decimal
  cases known : decimalValue? c with
  | some other => rw [(found known).unique decimal]
  | none =>
      obtain ⟨first, member, place, digit⟩ := decimal
      have outside := List.find?_eq_none.1 (Option.map_eq_none_iff.1 known) first member
      simp only [Bool.and_eq_true, decide_eq_true_eq] at outside
      omega

theorem isDigit_ascii {c : Char} (ascii : c.isDigit = true) : isDigit c = true := by
  simp only [Char.isDigit, Bool.and_eq_true, decide_eq_true_eq] at ascii
  simp only [isDigit, Ranges.covers_iff]
  exact ⟨(0x0030, 0x0039), by simp [digits], ascii.1, ascii.2⟩

end Calculator.Text
