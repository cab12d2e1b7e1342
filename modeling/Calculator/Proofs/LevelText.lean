import Calculator.Settings.Basic
import Mathlib.Data.List.Forall2

/-!
# Texts of levels

A text names a level when its letters are those of the name, each capital or
small, with blanks around them. A dotless i counts as a capital one, as its
capital is the same letter.
-/

namespace Calculator.LogLevel

/-- What may stand for a capital letter of a name. -/
inductive LetterOf (letter : Char) : Char → Prop where
  | capital : LetterOf letter letter
  | small : LetterOf letter letter.toLower
  | dotless (isI : letter = 'I') : LetterOf letter 'ı'

/-- The name of a level in letters of either case, with blanks around it. -/
inductive NamedBy (level : LogLevel) (text : String) : Prop where
  | intro {before letters after : List Char} (chars : text.toList = before ++ letters ++ after)
      (isBefore : ∀ c ∈ before, Text.isBlank c = true)
      (isAfter : ∀ c ∈ after, Text.isBlank c = true)
      (spelled : List.Forall₂ LetterOf level.name.toList letters) : NamedBy level text

/-! ## Capitals -/

theorem letterOf_iff (letter c : Char) :
    LetterOf letter c ↔ c = letter ∨ c = letter.toLower ∨ (letter = 'I' ∧ c = 'ı') := by
  constructor
  · rintro (_ | _ | isI)
    · exact .inl rfl
    · exact .inr (.inl rfl)
    · exact .inr (.inr ⟨isI, rfl⟩)
  · rintro (rfl | rfl | ⟨isI, rfl⟩)
    · exact .capital
    · exact .small
    · exact .dotless isI

theorem isUpper_of_mem_name {level : LogLevel} {letter : Char}
    (member : letter ∈ level.name.toList) : letter.isUpper = true := by
  have all : level.name.toList.all Char.isUpper = true := by cases level <;> rfl
  exact List.all_eq_true.1 all letter member

theorem exists_of_isUpper {letter : Char} (upper : letter.isUpper = true) :
    ∃ n < 26, letter = Char.ofNat ('A'.toNat + n) := by
  obtain ⟨low, high⟩ : 'A'.toNat ≤ letter.toNat ∧ letter.toNat ≤ 'A'.toNat + 25 :=
    of_decide_eq_true upper
  refine ⟨letter.toNat - 'A'.toNat, by omega, ?_⟩
  rw [Nat.add_sub_cancel' low, Char.ofNat_toNat]

theorem isUpper_ascii {letter : Char} (upper : letter.isUpper = true) :
    letter.toNat < 128 ∧ letter.toLower.toNat < 128 := by
  have decided : ∀ n < 26, (Char.ofNat ('A'.toNat + n)).toNat < 128 ∧
      (Char.ofNat ('A'.toNat + n)).toLower.toNat < 128 := by decide
  obtain ⟨n, bound, rfl⟩ := exists_of_isUpper upper
  exact decided n bound

/-- Among the plain characters a capital letter is the capital of itself and of the small one. -/
theorem capital_eq_iff_of_ascii {c letter : Char} (ascii : c.toNat < 128)
    (upper : letter.isUpper = true) : capital c = letter ↔ c = letter ∨ c = letter.toLower := by
  have decided : ∀ code < 128, ∀ n < 26,
      capital (Char.ofNat code) = Char.ofNat ('A'.toNat + n) ↔
        Char.ofNat code = Char.ofNat ('A'.toNat + n) ∨
          Char.ofNat code = (Char.ofNat ('A'.toNat + n)).toLower := by decide +kernel
  obtain ⟨n, bound, rfl⟩ := exists_of_isUpper upper
  have plain := decided c.toNat ascii n bound
  rwa [Char.ofNat_toNat] at plain

theorem capital_of_large {c : Char} (high : 128 ≤ c.toNat) (dotted : c ≠ 'ı') : capital c = c := by
  have notSmall : ¬ ('a'.val ≤ c.val ∧ c.val ≤ 'z'.val) := by
    rintro ⟨_, low⟩
    have small : c.toNat ≤ 122 := low
    omega
  rw [capital, if_neg dotted]
  exact dif_neg notSmall

theorem isBlank_capital (c : Char) : Text.isBlank (capital c) = Text.isBlank c := by
  have decided : ∀ code < 128,
      Text.isBlank (capital (Char.ofNat code)) = Text.isBlank (Char.ofNat code) := by
    decide +kernel
  by_cases dotless : c = 'ı'
  · subst dotless
    decide
  rcases Nat.lt_or_ge c.toNat 128 with ascii | large
  · have plain := decided c.toNat ascii
    rwa [Char.ofNat_toNat] at plain
  · rw [capital_of_large large dotless]

theorem capital_eq_iff {letter : Char} (upper : letter.isUpper = true) (c : Char) :
    capital c = letter ↔ LetterOf letter c := by
  obtain ⟨low, small⟩ := isUpper_ascii upper
  rw [letterOf_iff]
  by_cases dotless : c = 'ı'
  · have large : 128 ≤ c.toNat := by
      rw [dotless]
      decide
    have other : c ≠ letter ∧ c ≠ letter.toLower := by
      constructor <;> rintro rfl <;> omega
    rw [or_iff_right other.1, or_iff_right other.2, and_iff_left dotless, dotless]
    exact eq_comm
  have plain : c = letter ∨ c = letter.toLower ∨ (letter = 'I' ∧ c = 'ı') ↔
      c = letter ∨ c = letter.toLower := by simp [dotless]
  rw [plain]
  rcases Nat.lt_or_ge c.toNat 128 with ascii | large
  · exact capital_eq_iff_of_ascii ascii upper
  · have notSmall : c ≠ letter.toLower := by
      rintro rfl
      omega
    rw [capital_of_large large dotless, or_iff_left notSmall]

theorem map_capital_eq_iff (level : LogLevel) (letters : List Char) :
    letters.map capital = level.name.toList ↔
      List.Forall₂ LetterOf level.name.toList letters := by
  have same : letters.map capital = level.name.toList ↔
      List.Forall₂ (fun letter c => letter = capital c) level.name.toList letters := by
    rw [← List.forall₂_map_right_iff, List.forall₂_eq_eq_eq]
    exact eq_comm
  have inName : ∀ letter ∈ level.name.toList, letter.isUpper = true :=
    fun _ => isUpper_of_mem_name
  rw [same]
  constructor
  · intro capitals
    refine ((List.forall₂_and_left _ _).2 ⟨inName, capitals⟩).imp ?_
    rintro letter c ⟨upper, isCapital⟩
    exact (capital_eq_iff upper c).1 isCapital.symm
  · intro spelled
    refine ((List.forall₂_and_left _ _).2 ⟨inName, spelled⟩).imp ?_
    rintro letter c ⟨upper, isLetter⟩
    exact ((capital_eq_iff upper c).2 isLetter).symm

theorem ofText?_eq_some_iff (text : String) (level : LogLevel) :
    ofText? text = some level ↔
      Text.trimBy Text.isBlank (text.toList.map capital) = level.name.toList := by
  unfold ofText?
  dsimp only
  generalize Text.trimBy Text.isBlank _ = name
  constructor
  · intro found
    have same := List.find?_some found
    rw [eq_of_beq same, String.toList_ofList]
  · intro same
    rw [same, String.ofList_toList]
    cases level <;> rfl

/-- A level is read from the texts that name it. -/
theorem namedBy_iff (level : LogLevel) (text : String) :
    NamedBy level text ↔ ofText? text = some level := by
  rw [ofText?_eq_some_iff]
  constructor
  · rintro ⟨chars, isBefore, isAfter, spelled⟩
    rename_i before letters after
    have capitals := (map_capital_eq_iff level letters).2 spelled
    have blank {chars : List Char} (all : ∀ c ∈ chars, Text.isBlank c = true) :
        ∀ c ∈ chars.map capital, Text.isBlank c = true := by
      refine List.forall_mem_map.2 fun c member => ?_
      rw [isBlank_capital]
      exact all c member
    rw [chars, List.map_append, List.map_append, Text.trimBy_append (blank isBefore) (blank isAfter),
      capitals]
    have noBlank : level.name.toList.all (fun c => !Text.isBlank c) = true := by
      cases level <;> rfl
    refine Text.trimBy_of_not fun c member => ?_
    simpa using List.all_eq_true.1 noBlank c member
  · intro trimmed
    obtain ⟨front, back, split, isFront, isBack⟩ :=
      Text.exists_trimBy Text.isBlank (text.toList.map capital)
    rw [trimmed] at split
    obtain ⟨rest, after, chars, capitals, rfl⟩ := List.map_eq_append_iff.1 split
    obtain ⟨before, letters, rfl, rfl, spelled⟩ := List.map_eq_append_iff.1 capitals
    have blank {chars : List Char} (all : ∀ c ∈ chars.map capital, Text.isBlank c = true) :
        ∀ c ∈ chars, Text.isBlank c = true := by
      intro c member
      rw [← isBlank_capital]
      exact all _ (List.mem_map_of_mem member)
    exact .intro chars (blank isFront) (blank isBack) ((map_capital_eq_iff level letters).1 spelled)

end Calculator.LogLevel
