import Calculator.Text.Ranges

/-!
# Blanks

The characters that an expression may hold anywhere without meaning: the
separators of lines, paragraphs and words, and the control characters that
act as one. A zero-width space is no blank.
-/

namespace Calculator.Text

def blanks : Ranges :=
  [(0x0009, 0x000D), (0x001C, 0x0020), (0x0085, 0x0085), (0x00A0, 0x00A0), (0x1680, 0x1680),
   (0x2000, 0x200A), (0x2028, 0x2029), (0x202F, 0x202F), (0x205F, 0x205F), (0x3000, 0x3000)]

def isBlank (c : Char) : Bool :=
  blanks.covers c

/-- Removes every blank, inner ones too. -/
def stripBlanks (text : String) : String :=
  String.ofList (text.toList.filter fun c => !isBlank c)

/-- Removes the characters of a class from both ends. -/
def trimBy (drops : Char → Bool) (chars : List Char) : List Char :=
  ((chars.dropWhile drops).reverse.dropWhile drops).reverse

section

variable {drops : Char → Bool}

theorem trimBy_append {before after : List Char} (isBefore : ∀ c ∈ before, drops c = true)
    (isAfter : ∀ c ∈ after, drops c = true) (chars : List Char) :
    trimBy drops (before ++ chars ++ after) = trimBy drops chars := by
  have nothing : after.dropWhile drops = [] := by
    rw [← List.append_nil after, List.dropWhile_append_of_pos isAfter]
    rfl
  have reversed : ∀ c ∈ after.reverse, drops c = true :=
    fun c member => isAfter c (List.mem_reverse.1 member)
  unfold trimBy
  rw [List.append_assoc, List.dropWhile_append_of_pos isBefore, List.dropWhile_append]
  split
  next none => rw [nothing, List.isEmpty_iff.1 none]
  next => rw [List.reverse_append, List.dropWhile_append_of_pos reversed]

/-- What is removed stands before and after the rest. -/
theorem exists_trimBy (drops : Char → Bool) (chars : List Char) :
    ∃ before after, chars = before ++ trimBy drops chars ++ after ∧
      (∀ c ∈ before, drops c = true) ∧ ∀ c ∈ after, drops c = true := by
  have removed (chars : List Char) : ∀ c ∈ chars.takeWhile drops, drops c = true :=
    List.all_eq_true.1 List.all_takeWhile
  have front := List.takeWhile_append_dropWhile (p := drops) (l := chars)
  have back := List.takeWhile_append_dropWhile (p := drops) (l := (chars.dropWhile drops).reverse)
  refine ⟨chars.takeWhile drops, ((chars.dropWhile drops).reverse.takeWhile drops).reverse, ?_,
    removed chars, fun c member => removed _ c (List.mem_reverse.1 member)⟩
  rw [trimBy, List.append_assoc, ← List.reverse_append, back, List.reverse_reverse, front]

theorem trimBy_of_not {chars : List Char} (keeps : ∀ c ∈ chars, drops c = false) :
    trimBy drops chars = chars := by
  have dropped {chars : List Char} (keeps : ∀ c ∈ chars, drops c = false) :
      chars.dropWhile drops = chars := by
    cases chars with
    | nil => rfl
    | cons c rest =>
        apply List.dropWhile_cons_of_neg
        rw [keeps c (List.mem_cons_self ..)]
        exact Bool.false_ne_true
  have reversed : ∀ c ∈ chars.reverse, drops c = false := by
    intro c member
    exact keeps c (List.mem_reverse.1 member)
  rw [trimBy, dropped keeps, dropped reversed, List.reverse_reverse]

end

end Calculator.Text
