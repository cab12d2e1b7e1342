import Calculator.Proofs.Names
import Calculator.Word

/-!
# Written numbers

A number is written as digits with at most one point among them, after a sign
or without one. These are the words that a registry reads as numbers; every
other word with a value is a variable.
-/

namespace Calculator

/-- A number as it stands in an expression. -/
structure Written where
  sign : Option Char
  whole : List Char
  /-- What follows the point, if there is one. -/
  fraction : Option (List Char)

namespace Written

def digits (written : Written) : List Char :=
  written.whole ++ written.fraction.getD []

def body (written : Written) : List Char :=
  match written.fraction with
  | none => written.whole
  | some fraction => written.whole ++ '.' :: fraction

def chars (written : Written) : List Char :=
  written.sign.toList ++ written.body

def isNegative (written : Written) : Bool :=
  written.sign = some '-'

/-- The nearest double of the number. -/
def value (written : Written) : Float :=
  (Decimal.Numeral.finite written.isNegative (Decimal.natural written.digits)
    (-(written.fraction.getD []).length)).toFloat

/-- The digits are plain ones, there is one at least, and a sign is allowed and an operator. -/
structure Valid (registry : Registry) (signed : Bool) (written : Written) : Prop where
  sign : ∀ c ∈ written.sign, signed = true ∧ (c = '+' ∨ c = '-') ∧ registry.isOperator c = true
  digits : ∀ c ∈ written.digits, c.isDigit = true
  nonempty : written.digits ≠ []

theorem mem_body {written : Written} {c : Char} (member : c ∈ written.body) :
    c ∈ written.digits ∨ c = '.' := by
  obtain ⟨sign, whole, fraction⟩ := written
  cases fraction with
  | none => exact .inl (List.mem_append_left _ member)
  | some fraction =>
      rcases List.mem_append.1 member with inWhole | rest
      · exact .inl (List.mem_append_left _ inWhole)
      · rcases List.mem_cons.1 rest with point | inFraction
        · exact .inr point
        · exact .inl (List.mem_append_right _ inFraction)

end Written

namespace Decimal

/-! ## Digits and a point -/

theorem takeWhile_digits {digits : List Char} (rest : List Char) (all : ∀ c ∈ digits, c.isDigit = true)
    (stops : ∀ c ∈ rest.head?, c.isDigit = false) :
    (digits ++ rest).takeWhile Char.isDigit = digits ∧
      (digits ++ rest).dropWhile Char.isDigit = rest := by
  rw [List.takeWhile_append_of_pos all, List.dropWhile_append_of_pos all]
  cases rest with
  | nil => simp
  | cons c tail =>
      have notDigit : ¬ c.isDigit = true := by
        rw [stops c rfl]
        exact Bool.false_ne_true
      rw [List.takeWhile_cons_of_neg notDigit, List.dropWhile_cons_of_neg notDigit]
      simp

theorem splitPoint_body {written : Written} (digits : ∀ c ∈ written.digits, c.isDigit = true) :
    splitPoint written.body = (written.whole, written.fraction.getD [], []) := by
  obtain ⟨sign, whole, fraction⟩ := written
  have inWhole : ∀ c ∈ whole, c.isDigit = true := by
    intro c member
    exact digits c (List.mem_append_left _ member)
  cases fraction with
  | none =>
      obtain ⟨taken, dropped⟩ := takeWhile_digits [] inWhole (by simp)
      rw [List.append_nil] at taken dropped
      simp [splitPoint, Written.body, taken, dropped]
  | some fraction =>
      have inFraction : ∀ c ∈ fraction, c.isDigit = true := by
        intro c member
        exact digits c (List.mem_append_right _ member)
      obtain ⟨taken, dropped⟩ := takeWhile_digits ('.' :: fraction) inWhole (by simp)
      obtain ⟨later, nothing⟩ := takeWhile_digits [] inFraction (by simp)
      rw [List.append_nil] at later nothing
      simp [splitPoint, Written.body, taken, dropped, later, nothing]

/-- Plain characters of a number, split where the digits end. -/
theorem exists_digits {chars : List Char} (plain : ∀ c ∈ chars, c.isDigit = true ∨ c = '.') :
    ∃ digits rest, chars = digits ++ rest ∧ (∀ c ∈ digits, c.isDigit = true) ∧
      (rest = [] ∨ ∃ tail, rest = '.' :: tail) := by
  refine ⟨chars.takeWhile Char.isDigit, chars.dropWhile Char.isDigit,
    List.takeWhile_append_dropWhile.symm, ?_, ?_⟩
  · intro c member
    exact List.all_eq_true.1 List.all_takeWhile c member
  · cases shape : chars.dropWhile Char.isDigit with
    | nil => exact .inl rfl
    | cons c tail =>
        have notDigit : ¬ c.isDigit = true := by
          have head := List.head_dropWhile_not (p := Char.isDigit) (l := chars) (by rw [shape]; simp)
          simpa [shape] using head
        have member : c ∈ chars := by
          refine (List.dropWhile_sublist Char.isDigit).subset ?_
          rw [shape]
          exact List.mem_cons_self ..
        rcases plain c member with digit | rfl
        · exact absurd digit notDigit
        · exact .inr ⟨tail, rfl⟩

theorem digits?_body {written : Written} (digits : ∀ c ∈ written.digits, c.isDigit = true)
    (nonempty : written.digits ≠ []) (negative : Bool) :
    Numeral.digits? negative written.body = some (.finite negative (natural written.digits)
      (-(written.fraction.getD []).length)) := by
  have present : ¬ (written.whole = [] ∧ written.fraction.getD [] = []) := by
    rintro ⟨noWhole, noFraction⟩
    exact nonempty (by rw [Written.digits, noWhole, noFraction]; rfl)
  rw [Numeral.digits?, splitPoint_body digits]
  simp only [if_neg present]
  simp [exponent?, Written.digits]

/-- Plain characters that make a numeral are written as a number. -/
theorem exists_body {chars : List Char} (plain : ∀ c ∈ chars, c.isDigit = true ∨ c = '.')
    {negative : Bool} {numeral : Numeral}
    (found : Numeral.digits? negative chars = some numeral) (sign : Option Char) :
    ∃ written : Written, written.sign = sign ∧ written.body = chars ∧
      (∀ c ∈ written.digits, c.isDigit = true) ∧ written.digits ≠ [] := by
  obtain ⟨whole, rest, rfl, inWhole, none | ⟨tail, point⟩⟩ := exists_digits plain
  · subst none
    refine ⟨⟨sign, whole, none⟩, rfl, (List.append_nil _).symm, ?_, ?_⟩
    · simpa [Written.digits] using inWhole
    · intro empty
      have nothing : whole = [] := by simpa [Written.digits] using empty
      subst nothing
      simp [Numeral.digits?, splitPoint] at found
  · subst point
    have plainTail : ∀ c ∈ tail, c.isDigit = true ∨ c = '.' := by
      intro c member
      exact plain c (List.mem_append_right _ (List.mem_cons_of_mem _ member))
    obtain ⟨fraction, later, rfl, inFraction, stops⟩ := exists_digits plainTail
    obtain ⟨taken, dropped⟩ := takeWhile_digits ('.' :: (fraction ++ later)) inWhole (by simp)
    have notDigit : ∀ c ∈ later.head?, c.isDigit = false := by
      rcases stops with rfl | ⟨end_, rfl⟩
      · simp
      · simp
    obtain ⟨takenLater, droppedLater⟩ := takeWhile_digits later inFraction notDigit
    simp only [Numeral.digits?, splitPoint, taken, dropped, takenLater, droppedLater] at found
    split at found
    next => cases found
    next present =>
      -- What follows the fraction would be an exponent, which does not start with a point.
      have nothing : later = [] := by
        rcases stops with none | ⟨more, rfl⟩
        · exact none
        · simp [exponent?] at found
      subst nothing
      refine ⟨⟨sign, whole, some fraction⟩, rfl, by simp [Written.body], ?_, ?_⟩
      · intro c member
        rcases List.mem_append.1 member with whole | fraction
        · exact inWhole c whole
        · exact inFraction c fraction
      · intro empty
        exact present (List.append_eq_nil_iff.1 empty)

theorem toLower_of_plain {c : Char} (plain : c.isDigit = true ∨ c = '.') : c.toLower = c := by
  rcases plain with digit | rfl
  · simp only [Char.isDigit, Bool.and_eq_true, decide_eq_true_eq] at digit
    have notUpper : ¬ (c.val ≥ 'A'.val ∧ c.val ≤ 'Z'.val) := by
      rintro ⟨low, _⟩
      have atMost : c.val.toNat ≤ 57 := digit.2
      have atLeast : 65 ≤ c.val.toNat := low
      omega
    exact dif_neg notUpper
  · rfl

/-- The special words have a letter after their first one. -/
theorem word?_eq_none {c : Char} {rest : List Char}
    (plain : ∀ other ∈ rest, other.isDigit = true ∨ other = '.') (negative : Bool) :
    Numeral.word? negative (c :: rest) = none := by
  have lower : (c :: rest).map Char.toLower = c.toLower :: rest := by
    rw [List.map_cons, List.map_congr_left fun other member => toLower_of_plain (plain other member),
      List.map_id']
  have other (first second : Char) (tail : List Char)
      (letter : ¬ (second.isDigit = true ∨ second = '.')) :
      String.ofList (c.toLower :: rest) ≠ String.ofList (first :: second :: tail) := by
    intro same
    have lists := String.ofList_injective same
    have second_mem : second ∈ rest := by
      rw [(List.cons.inj lists).2]
      exact List.mem_cons_self ..
    exact letter (plain second second_mem)
  have notInf := other 'i' 'n' ['f'] (by decide)
  have notInfinity := other 'i' 'n' ['f', 'i', 'n', 'i', 't', 'y'] (by decide)
  have notNan := other 'n' 'a' ['n'] (by decide)
  unfold Numeral.word?
  rw [lower]
  dsimp only
  rw [if_neg, if_neg notNan]
  rintro (inf | infinity)
  · exact notInf inf
  · exact notInfinity infinity

theorem splitSign_of_plain {c : Char} {rest : List Char} (plain : c.isDigit = true ∨ c = '.') :
    splitSign (c :: rest) = (false, c :: rest) := by
  unfold splitSign
  split
  next same => cases same; exact absurd plain (by decide)
  next same => cases same; exact absurd plain (by decide)
  next => rfl

theorem splitSign_chars {written : Written} (sign : ∀ c ∈ written.sign, c = '+' ∨ c = '-')
    (digits : ∀ c ∈ written.digits, c.isDigit = true) :
    splitSign written.chars = (written.isNegative, written.body) := by
  obtain ⟨signs, whole, fraction⟩ := written
  cases signs with
  | some c =>
      rcases sign c rfl with rfl | rfl
      · rfl
      · rfl
  | none =>
      change splitSign (Written.body _) = (false, _)
      cases shape : Written.body ⟨none, whole, fraction⟩ with
      | nil => rfl
      | cons c rest =>
          apply splitSign_of_plain
          have member : c ∈ Written.body ⟨none, whole, fraction⟩ := by
            rw [shape]
            exact List.mem_cons_self ..
          rcases Written.mem_body member with digit | point
          · exact .inl (digits c digit)
          · exact .inr point

theorem ofChars?_chars {written : Written} (sign : ∀ c ∈ written.sign, c = '+' ∨ c = '-')
    (digits : ∀ c ∈ written.digits, c.isDigit = true) (nonempty : written.digits ≠ []) :
    (Numeral.ofChars? written.chars).map Numeral.toFloat = some written.value := by
  rw [Numeral.ofChars?, splitSign_chars sign digits]
  simp [digits?_body digits nonempty, Written.value]

theorem digits?_of_ofChars? {chars : List Char} {negative : Bool} {numeral : Numeral}
    (plain : ∀ c ∈ chars.tail, c.isDigit = true ∨ c = '.')
    (found : ((Numeral.digits? negative chars).orElse fun _ => Numeral.word? negative chars) =
      some numeral) : Numeral.digits? negative chars = some numeral := by
  have noWord : Numeral.word? negative chars = none := by
    cases chars with
    | nil => rfl
    | cons c rest => exact word?_eq_none plain negative
  rw [noWord] at found
  cases digits : Numeral.digits? negative chars with
  | some other => rwa [digits] at found
  | none =>
      rw [digits] at found
      cases found

theorem splitSign_cons (c : Char) (rest : List Char) :
    ((c = '+' ∨ c = '-') ∧ splitSign (c :: rest) = (decide (some c = some '-'), rest)) ∨
      splitSign (c :: rest) = (false, c :: rest) := by
  unfold splitSign
  split
  next same => cases same; exact .inl ⟨.inr rfl, rfl⟩
  next same => cases same; exact .inl ⟨.inl rfl, rfl⟩
  next => exact .inr rfl

/-- A head that belongs to no number ends the digits before there are any. -/
theorem digits?_cons_eq_none {c : Char} (notNumber : isNumberChar c = false) (rest : List Char)
    (negative : Bool) : Numeral.digits? negative (c :: rest) = none := by
  rw [isNumberChar, Bool.or_eq_false_iff] at notNumber
  have notDigit : ∀ d ∈ (c :: rest).head?, d.isDigit = false := by
    intro d first
    cases first
    rw [Bool.eq_false_iff]
    intro digit
    rw [Text.isDigit_ascii digit] at notNumber
    cases notNumber.1
  have notPoint : c ≠ '.' := by simpa using notNumber.2
  have none : ∀ d ∈ ([] : List Char), d.isDigit = true := by simp
  obtain ⟨taken, dropped⟩ := takeWhile_digits (c :: rest) none notDigit
  rw [List.nil_append] at taken dropped
  simp [Numeral.digits?, splitPoint, taken, dropped, notPoint]

/-- Plain characters after one that is plain or no character of a number, read as a numeral. -/
theorem exists_written {c : Char} {rest : List Char} {value : Float}
    (head : (c.isDigit = true ∨ c = '.') ∨ isNumberChar c = false)
    (plain : ∀ other ∈ rest, other.isDigit = true ∨ other = '.')
    (found : (Numeral.ofChars? (c :: rest)).map Numeral.toFloat = some value) :
    ∃ written : Written, written.chars = c :: rest ∧ written.value = value ∧
      (∀ s ∈ written.sign, s = '+' ∨ s = '-') ∧
      (∀ d ∈ written.digits, d.isDigit = true) ∧ written.digits ≠ [] := by
  obtain ⟨numeral, read, rfl⟩ := Option.map_eq_some_iff.1 found
  rw [Numeral.ofChars?] at read
  rcases splitSign_cons c rest with ⟨sign, split⟩ | split
  · rw [split] at read
    have plainTail : ∀ d ∈ rest.tail, d.isDigit = true ∨ d = '.' := by
      intro d member
      exact plain d (List.mem_of_mem_tail member)
    have digitsRead := digits?_of_ofChars? plainTail read
    obtain ⟨written, signed, rfl, digits, nonempty⟩ := exists_body plain digitsRead (some c)
    rw [digits?_body digits nonempty] at digitsRead
    refine ⟨written, ?_, ?_, ?_, digits, nonempty⟩
    · rw [Written.chars, signed]
      rfl
    · rw [← Option.some.inj digitsRead, Written.value, Written.isNegative, signed]
    · intro s member
      rw [signed] at member
      cases member
      exact sign
  · rw [split] at read
    have digitsRead : Numeral.digits? false (c :: rest) = some numeral :=
      digits?_of_ofChars? plain read
    rcases head with plainHead | notNumber
    · have all : ∀ d ∈ c :: rest, d.isDigit = true ∨ d = '.' := by
        intro d member
        rcases List.mem_cons.1 member with rfl | later
        · exact plainHead
        · exact plain d later
      obtain ⟨written, unsigned, body, digits, nonempty⟩ := exists_body all digitsRead none
      rw [← body, digits?_body digits nonempty] at digitsRead
      refine ⟨written, ?_, ?_, ?_, digits, nonempty⟩
      · rw [Written.chars, unsigned, body]
        rfl
      · rw [← Option.some.inj digitsRead, Written.value, Written.isNegative, unsigned]
        rfl
      · intro s member
        rw [unsigned] at member
        cases member
    · rw [digits?_cons_eq_none notNumber] at digitsRead
      cases digitsRead

/-! ## Texts without anything to strip -/

theorem mapM_plainChar? {chars : List Char} (ascii : ∀ c ∈ chars, c.toNat < 128) :
    chars.mapM plainChar? = some chars := by
  induction chars with
  | nil => rfl
  | cons c rest ih =>
      have first : plainChar? c = some c := if_pos (ascii c (List.mem_cons_self ..))
      have later := ih fun other member => ascii other (List.mem_cons_of_mem _ member)
      rw [List.mapM_cons, first, later]
      rfl

theorem joinDigits?_of_not_mem {chars : List Char} (free : '_' ∉ chars) (afterDigit : Bool) :
    joinDigits? afterDigit chars = some chars := by
  induction chars generalizing afterDigit with
  | nil => rfl
  | cons c rest ih =>
      rw [List.mem_cons, not_or] at free
      have other : c ≠ '_' := fun same => free.1 same.symm
      rw [joinDigits?, if_neg other, ih free.2]
      rfl

/-- The bare characters, and none when an underscore comes first. -/
theorem bareChars?_ofList {chars : List Char} (ascii : ∀ c ∈ chars, c.toNat < 128)
    (notBlank : ∀ c ∈ chars, isPlainBlank c = false) :
    bareChars? (String.ofList chars) = joinDigits? false chars := by
  rw [bareChars?, String.toList_ofList, mapM_plainChar? ascii]
  change joinDigits? false (Text.trimBy isPlainBlank chars) = _
  rw [Text.trimBy_of_not notBlank]

end Decimal

/-! ## Words with a value -/

theorem isDigit_of_isNumberChar {c : Char} (number : isNumberChar c = true) (ascii : c.toNat < 128) :
    c.isDigit = true ∨ c = '.' := by
  rcases Registry.isNumberChar_iff.1 number with digit | point
  · obtain ⟨range, member, low, high⟩ := (Text.Ranges.covers_iff _ _).1 digit
    have plain : ∀ range ∈ Text.digits, range.1 < 128 → range = (0x0030, 0x0039) := by decide
    cases plain range member (by omega)
    exact .inl (by simpa [Char.isDigit] using ⟨low, high⟩)
  · exact .inr point

theorem isPlainBlank_of_not_isBlank {c : Char} (notBlank : Text.isBlank c = false) :
    Decimal.isPlainBlank c = false := by
  rw [Bool.eq_false_iff] at notBlank ⊢
  intro plain
  apply notBlank
  rw [Text.isBlank, Text.Ranges.covers_iff]
  simp only [Decimal.isPlainBlank, Bool.or_eq_true, Bool.and_eq_true, decide_eq_true_eq] at plain
  rcases plain with space | control
  · exact ⟨(0x001C, 0x0020), by decide, by omega, by omega⟩
  · exact ⟨(0x0009, 0x000D), by decide, control.1, control.2⟩

/-- What a digit, a point or a sign has in common. -/
theorem plain_char {c : Char} (plain : c.isDigit = true ∨ c = '.' ∨ c = '+' ∨ c = '-') :
    c.toNat < 128 ∧ Decimal.isPlainBlank c = false ∧ c ≠ '_' := by
  rcases plain with digit | rfl | rfl | rfl
  · simp only [Char.isDigit, Bool.and_eq_true, decide_eq_true_eq] at digit
    have low : 48 ≤ c.toNat := digit.1
    have high : c.toNat ≤ 57 := digit.2
    refine ⟨by omega, ?_, ?_⟩
    · simp [Decimal.isPlainBlank]
      omega
    · rintro rfl
      exact absurd high (by decide)
  · decide
  · decide
  · decide

/-- A text of a head and plain characters that is a number is written as one. -/
theorem Decimal.exists_written_of_float? {c : Char} {rest : List Char} {value : Float}
    (ascii : c.toNat < 128) (notBlank : isPlainBlank c = false)
    (head : (c.isDigit = true ∨ c = '.') ∨ isNumberChar c = false)
    (plain : ∀ other ∈ rest, other.isDigit = true ∨ other = '.')
    (found : float? (String.ofList (c :: rest)) = some value) :
    ∃ written : Written, written.chars = c :: rest ∧ written.value = value ∧
      (∀ s ∈ written.sign, s = '+' ∨ s = '-') ∧
      (∀ d ∈ written.digits, d.isDigit = true) ∧ written.digits ≠ [] := by
  have tail (other : Char) (member : other ∈ rest) :
      other.toNat < 128 ∧ isPlainBlank other = false ∧ other ≠ '_' := by
    rcases plain other member with digit | point
    · exact plain_char (.inl digit)
    · exact plain_char (.inr (.inl point))
  have allAscii : ∀ other ∈ c :: rest, other.toNat < 128 := by
    intro other member
    rcases List.mem_cons.1 member with rfl | later
    · exact ascii
    · exact (tail other later).1
  have noBlank : ∀ other ∈ c :: rest, isPlainBlank other = false := by
    intro other member
    rcases List.mem_cons.1 member with rfl | later
    · exact notBlank
    · exact (tail other later).2.1
  rw [float?, bareChars?_ofList allAscii noBlank] at found
  by_cases underscore : c = '_'
  · subst underscore
    cases found
  · have free : '_' ∉ c :: rest := by
      intro member
      rcases List.mem_cons.1 member with first | later
      · exact underscore first.symm
      · exact (tail _ later).2.2 rfl
    rw [joinDigits?_of_not_mem free] at found
    exact exists_written head plain found

theorem Written.Valid.mem_chars {registry : Registry} {signed : Bool} {written : Written}
    (valid : written.Valid registry signed) {c : Char} (member : c ∈ written.chars) :
    (c.isDigit = true ∨ c = '.' ∨ c = '+' ∨ c = '-') ∧
      (isNumberChar c = true ∨ registry.isOperator c = true) := by
  rcases List.mem_append.1 member with inSign | inBody
  · obtain ⟨_, plusOrMinus, known⟩ := valid.sign c (Option.mem_toList.1 inSign)
    exact ⟨.inr (.inr plusOrMinus), .inr known⟩
  · rcases Written.mem_body inBody with inDigits | point
    · have digit := valid.digits c inDigits
      exact ⟨.inl digit, .inl (Registry.isNumberChar_iff.2 (.inl (Text.isDigit_ascii digit)))⟩
    · exact ⟨.inr (.inl point), .inl (Registry.isNumberChar_iff.2 (.inr point))⟩

namespace Registry

variable {registry : Registry}

theorem valueOf_chars {signed : Bool} {written : Written} (valid : written.Valid registry signed) :
    registry.valueOf (String.ofList written.chars) = .ok written.value := by
  have numeric : registry.isNumberWord (String.ofList written.chars) = true := by
    rw [isNumberWord, String.toList_ofList, List.all_eq_true]
    intro c member
    exact Bool.or_eq_true_iff.2 (valid.mem_chars member).2
  have ascii : ∀ c ∈ written.chars, c.toNat < 128 := by
    intro c member
    exact (plain_char (valid.mem_chars member).1).1
  have bare : Decimal.bareChars? (String.ofList written.chars) = some written.chars := by
    rw [Decimal.bareChars?_ofList ascii fun c member => (plain_char (valid.mem_chars member).1).2.1]
    apply Decimal.joinDigits?_of_not_mem
    intro member
    exact (plain_char (valid.mem_chars member).1).2.2 rfl
  have number : number? (String.ofList written.chars) = some written.value := by
    rw [number?, String.toList_ofList, if_pos (by simpa using ascii), Decimal.float?, bare]
    exact Decimal.ofChars?_chars (fun c member => (valid.sign c member).2.1) valid.digits
      valid.nonempty
  rw [valueOf, if_pos numeric, number]

theorem valueOf_binding (legible : registry.Legible) {name : String} {value : Float}
    (found : registry.bindings.find? name = some value) : registry.valueOf name = .ok value := by
  have usable := legible.binding found
  have notNumeric : ¬ registry.isNumberWord name = true := by
    intro numeric
    apply usable
    refine .inr (.inr ?_)
    intro c member
    have char := List.all_eq_true.1 numeric c member
    rw [(not_reserved_of_usable usable member).2, Bool.or_false] at char
    exact isNumberChar_iff.1 char
  rw [valueOf, if_neg notNumeric, found]

theorem valueOf_eq_ok {word : String} {value : Float} (known : registry.valueOf word = .ok value) :
    (registry.isNumberWord word = true ∧ number? word = some value) ∨
      registry.bindings.find? word = some value := by
  unfold valueOf at known
  split at known
  next numeric =>
    split at known
    next read => cases known; exact .inl ⟨numeric, read⟩
    next => cases known
  next =>
    split at known
    next found => cases known; exact .inr found
    next => split at known <;> cases known

theorem number?_eq_some {word : String} {value : Float} (read : number? word = some value) :
    (∀ c ∈ word.toList, c.toNat < 128) ∧ Decimal.float? word = some value := by
  unfold number? at read
  split at read
  next ascii =>
    rw [List.all_eq_true] at ascii
    exact ⟨fun c member => of_decide_eq_true (ascii c member), read⟩
  next => cases read

/-- A numeric word begins with a digit or a point, or else with no character of a number. -/
theorem head_of_numberWord (symbols : ∀ {c}, registry.isOperator c = true → IsSymbol c) {c : Char}
    (ascii : c.toNat < 128) (char : isNumberChar c = true ∨ registry.isOperator c = true) :
    Decimal.isPlainBlank c = false ∧ ((c.isDigit = true ∨ c = '.') ∨ isNumberChar c = false) := by
  rcases char with number | operator
  · have plain := isDigit_of_isNumberChar number ascii
    refine ⟨?_, .inl plain⟩
    rcases plain with digit | point
    · exact (plain_char (.inl digit)).2.1
    · exact (plain_char (.inr (.inl point))).2.1
  · have symbol := symbols operator
    exact ⟨isPlainBlank_of_not_isBlank symbol.notBlank, .inr symbol.notNumber⟩

/-- A numeric word without an operator after its first character is a written number if it is any. -/
theorem exists_written_of_number? (symbols : ∀ {c}, registry.isOperator c = true → IsSymbol c)
    {c : Char} {rest : List Char} {value : Float}
    (tail : ∀ other ∈ rest, registry.isOperator other = false)
    (numeric : registry.isNumberWord (String.ofList (c :: rest)) = true)
    (number : number? (String.ofList (c :: rest)) = some value) :
    ∃ written : Written, written.Valid registry true ∧ written.chars = c :: rest ∧
      written.value = value := by
  obtain ⟨ascii, read⟩ := number?_eq_some number
  rw [isNumberWord, String.toList_ofList, List.all_eq_true] at numeric
  rw [String.toList_ofList] at ascii
  have plainTail : ∀ other ∈ rest, other.isDigit = true ∨ other = '.' := by
    intro other member
    have inWord := List.mem_cons_of_mem c member
    have char := numeric other inWord
    rw [tail other member, Bool.or_false] at char
    exact isDigit_of_isNumberChar char (ascii other inWord)
  have first := Bool.or_eq_true_iff.1 (numeric c (List.mem_cons_self ..))
  have inWord := ascii c (List.mem_cons_self ..)
  obtain ⟨notBlank, head⟩ := head_of_numberWord symbols inWord first
  obtain ⟨written, chars, same, sign, digits, nonempty⟩ :=
    Decimal.exists_written_of_float? inWord notBlank head plainTail read
  refine ⟨written, ⟨?_, digits, nonempty⟩, chars, same⟩
  intro s member
  refine ⟨rfl, sign s member, ?_⟩
  -- A sign is the head of the word, and no character of a number.
  have isHead : s = c := by
    rw [Written.chars, Option.mem_def.1 member] at chars
    exact (List.cons.inj chars).1
  rw [isHead] at member ⊢
  rcases first with number | operator
  · rcases sign c member with rfl | rfl
    · exact absurd number (by decide)
    · exact absurd number (by decide)
  · exact operator

/-- A word without an operator after its first character has the value of a number or a variable. -/
theorem exists_of_valueOf (legible : registry.Legible) {c : Char} {rest : List Char} {value : Float}
    (tail : ∀ other ∈ rest, registry.isOperator other = false)
    (known : registry.valueOf (String.ofList (c :: rest)) = .ok value) :
    (∃ written : Written, written.Valid registry true ∧ written.chars = c :: rest ∧
      written.value = value) ∨
      registry.bindings.find? (String.ofList (c :: rest)) = some value := by
  rcases valueOf_eq_ok known with ⟨numeric, number⟩ | found
  · exact .inl (exists_written_of_number? legible.operator tail numeric number)
  · exact .inr found

end Registry

end Calculator
