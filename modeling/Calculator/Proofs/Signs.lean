import Calculator.Proofs.Catalog
import Calculator.Proofs.Numeral
import Calculator.Proofs.Prefix
import Calculator.Proofs.Rounding

/-!
# Signs and number words

Whether an operator symbol is a sign depends on the two characters before it
alone, although the scan carries its position through every word, bracket
and separator. So a word holds at most one operator symbol, as its first
character, and a word that could be a number is one exactly when it is
written as one.
-/

namespace Calculator

namespace Scan

variable {isOperator : Char → Bool}

/-! ## The two characters before -/

/-- The last character was itself read as an operator. -/
def EndsInOperator (isOperator : Char → Bool) (before : List Char) : Prop :=
  ∃ earlier c, before = earlier ++ [c] ∧
    .operator c ∈ ((after isOperator earlier).read isOperator c).1

/-- The last character is an opening bracket or an operator. -/
def EndsOpen (isOperator : Char → Bool) (before : List Char) : Prop :=
  before.getLast? = some '(' ∨ EndsInOperator isOperator before

/-- An operator symbol that comes next is a candidate for a sign. -/
def SignPlace (isOperator : Char → Bool) (before : List Char) : Prop :=
  before = [] ∨ EndsOpen isOperator before

/-- A sign may not come next: the bracket before it stands after a bracket or an operator. -/
def SignBarred (isOperator : Char → Bool) (before : List Char) : Prop :=
  ∃ earlier, before = earlier ++ ['('] ∧ EndsOpen isOperator earlier

theorem endsInOperator_concat {before : List Char} {c : Char} :
    EndsInOperator isOperator (before ++ [c]) ↔
      .operator c ∈ ((after isOperator before).read isOperator c).1 := by
  constructor
  · rintro ⟨earlier, last, same, emitted⟩
    obtain ⟨rfl, rfl⟩ := List.append_singleton_inj.1 same
    exact emitted
  · intro emitted
    exact ⟨before, c, rfl, emitted⟩

theorem signBarred_concat {before : List Char} {c : Char} :
    SignBarred isOperator (before ++ [c]) ↔ c = '(' ∧ EndsOpen isOperator before := by
  constructor
  · rintro ⟨earlier, same, opened⟩
    obtain ⟨rfl, rfl⟩ := List.append_singleton_inj.1 same
    exact ⟨rfl, opened⟩
  · rintro ⟨rfl, opened⟩
    exact ⟨before, rfl, opened⟩

/-- The position after one more character, by what that character was read as. -/
theorem after_concat_cases (symbols : Unreserved isOperator) (before : List Char) (c : Char) :
    (.misplacedSign ∈ ((after isOperator before).read isOperator c).1) ∨
      (c = '(' ∧ after isOperator (before ++ [c]) =
        ⟨(after isOperator before).position.afterBracket, []⟩) ∨
      (c ≠ '(' ∧ EndsInOperator isOperator (before ++ [c]) ∧
        after isOperator (before ++ [c]) = ⟨.opened, []⟩) ∨
      (c ≠ '(' ∧ ¬ EndsInOperator isOperator (before ++ [c]) ∧
        (after isOperator (before ++ [c])).position = .operand) := by
  have reserved {c : Char} (found : isReserved c = true) :
      .operator c ∉ ((after isOperator before).read isOperator c).1 := by
    intro member
    have known := isOperator_of_mem_read member
    rw [symbols.not_operator found] at known
    cases known
  rw [after_concat, endsInOperator_concat]
  rcases read_cases symbols (after isOperator before) c with ⟨operator, inside⟩ |
    ⟨operator, nested⟩ | ⟨_, rfl | rfl | rfl⟩ | ⟨notReserved, sign⟩
  · refine .inr (.inr (.inl ⟨?_, ?_⟩))
    · rintro rfl
      rw [symbols.not_operator rfl] at operator
      cases operator
    · rw [read_operator operator inside, close_eq]
      exact ⟨by simp, rfl⟩
  · rw [read_misplacedSign operator nested]
    exact .inl (List.mem_singleton.2 rfl)
  · refine .inr (.inl ⟨rfl, ?_⟩)
    rw [read_openBracket _ (symbols.not_operator rfl)]
  · refine .inr (.inr (.inr ⟨by decide, reserved rfl, ?_⟩))
    rw [read_closeBracket _ (symbols.not_operator rfl), close_eq]
  · refine .inr (.inr (.inr ⟨by decide, reserved rfl, ?_⟩))
    rw [read_separator _ (symbols.not_operator rfl), close_eq]
  · refine .inr (.inr (.inr ⟨?_, ?_, ?_⟩))
    · rintro rfl
      cases notReserved
    · simp [read_extend notReserved sign, extend]
    · rw [read_extend notReserved sign]
      rfl

/-- The position is read off the last two characters. -/
inductive PositionAfter (isOperator : Char → Bool) (before : List Char) : Position → Prop where
  | start (nothing : before = []) : PositionAfter isOperator before .start
  | operand (some : before ≠ []) (closed : ¬ EndsOpen isOperator before) :
      PositionAfter isOperator before .operand
  | opened (opened : EndsOpen isOperator before) (free : ¬ SignBarred isOperator before) :
      PositionAfter isOperator before .opened
  | nested (barred : SignBarred isOperator before) : PositionAfter isOperator before .nested

theorem positionAfter (symbols : Unreserved isOperator) {before : List Char}
    (placed : .misplacedSign ∉ Token.emitted isOperator before) :
    PositionAfter isOperator before (after isOperator before).position := by
  induction before using List.reverseRecOn with
  | nil => exact .start rfl
  | append_singleton before c ih =>
      rw [emitted_concat, List.mem_append, not_or] at placed
      have some : before ++ [c] ≠ [] := by simp
      rcases after_concat_cases symbols before c with misplaced | ⟨rfl, next⟩ |
        ⟨other, operator, next⟩ | ⟨other, noOperator, next⟩
      · exact absurd misplaced placed.2
      · have bracket : EndsOpen isOperator (before ++ ['(']) := .inl (by simp)
        have known := ih placed.1
        rw [next]
        revert known
        generalize (after isOperator before).position = position
        intro known
        cases known with
        | start nothing =>
            refine .opened bracket ?_
            rw [signBarred_concat, nothing]
            rintro ⟨_, last | ⟨earlier, c, split, _⟩⟩
            · cases last
            · simp at split
        | operand some closed =>
            refine .opened bracket ?_
            rw [signBarred_concat]
            exact fun barred => closed barred.2
        | opened opened free => exact .nested (signBarred_concat.2 ⟨rfl, opened⟩)
        | nested barred =>
            obtain ⟨earlier, rfl, _⟩ := barred
            exact .nested (signBarred_concat.2 ⟨rfl, .inl (by simp)⟩)
      · rw [next]
        refine .opened (.inr operator) ?_
        rw [signBarred_concat]
        exact fun barred => other barred.1
      · rw [next]
        refine .operand some ?_
        rintro (last | operator)
        · simp only [List.getLast?_append, List.getLast?_singleton, Option.some_or] at last
          exact other (Option.some.inj last)
        · exact noOperator operator

theorem SignBarred.signPlace {before : List Char} (barred : SignBarred isOperator before) :
    SignPlace isOperator before := by
  obtain ⟨earlier, rfl, _⟩ := barred
  exact .inr (.inl (by simp))

/-- A symbol is a candidate for a sign unless the scan is inside or behind an operand. -/
theorem PositionAfter.eq_operand_iff {before : List Char} {position : Position}
    (known : PositionAfter isOperator before position) :
    position = .operand ↔ ¬ SignPlace isOperator before := by
  cases known with
  | start nothing => simp [SignPlace, nothing]
  | operand some closed => simp [SignPlace, some, closed]
  | opened opened free => simp [SignPlace, opened]
  | nested barred => simp [barred.signPlace]

theorem PositionAfter.eq_nested_iff {before : List Char} {position : Position}
    (known : PositionAfter isOperator before position) :
    position = .nested ↔ SignBarred isOperator before := by
  cases known with
  | start nothing => simp [SignBarred, nothing]
  | operand some closed =>
      refine ⟨nofun, ?_⟩
      rintro ⟨earlier, rfl, _⟩
      exact absurd (.inl (by simp)) closed
  | opened opened free => simp [free]
  | nested barred => simp [barred]

/-- Only behind an ordinary character can a word have begun. -/
theorem word_eq_nil_of_position (symbols : Unreserved isOperator) {before : List Char}
    (outside : (after isOperator before).position ≠ .operand) :
    (after isOperator before).word = [] := by
  obtain ⟨_, _, begun⟩ := exists_begun symbols before
  rcases begun.forming with ⟨empty, _⟩ | ⟨inside, _⟩
  · exact empty
  · exact absurd inside outside

/-- How an operator symbol is read, by what stands before it. -/
inductive ReadsSymbol (isOperator : Char → Bool) (before : List Char) (c : Char) :
    List Token × Scan → Prop where
  | operator (notSign : ¬ SignPlace isOperator before) :
      ReadsSymbol isOperator before c
        ((after isOperator before).finish ++ [.operator c], ⟨.opened, []⟩)
  | barred (barred : SignBarred isOperator before) :
      ReadsSymbol isOperator before c ([.misplacedSign], after isOperator before)
  | sign (place : SignPlace isOperator before) (free : ¬ SignBarred isOperator before) :
      ReadsSymbol isOperator before c ([], ⟨.operand, [c]⟩)

theorem readsSymbol (symbols : Unreserved isOperator) {before : List Char} {c : Char}
    (placed : .misplacedSign ∉ Token.emitted isOperator before) (known : isOperator c = true) :
    ReadsSymbol isOperator before c ((after isOperator before).read isOperator c) := by
  have position := positionAfter symbols placed
  by_cases inside : (after isOperator before).position = .operand
  · rw [read_operator known inside, close_eq]
    exact .operator (position.eq_operand_iff.1 inside)
  · have place : SignPlace isOperator before := by
      by_contra notSign
      exact inside (position.eq_operand_iff.2 notSign)
    by_cases nested : (after isOperator before).position = .nested
    · rw [read_misplacedSign known nested]
      exact .barred (position.eq_nested_iff.1 nested)
    · have takes : (after isOperator before).position.TakesSign := by
        cases here : (after isOperator before).position with
        | start => exact .inl rfl
        | operand => exact absurd here inside
        | opened => exact .inr rfl
        | nested => exact absurd here nested
      rw [read_extend (symbols c known) fun _ => takes, extend,
        word_eq_nil_of_position symbols inside]
      exact .sign place fun barred => nested (position.eq_nested_iff.2 barred)

end Scan

/-! ## Number words -/

/-- Plain digits with at most one point, at least one digit, and a plus or a minus before or not. -/
structure Written.Proper (written : Written) : Prop where
  sign : ∀ c ∈ written.sign, c = '+' ∨ c = '-'
  digits : ∀ c ∈ written.digits, c.isDigit = true
  nonempty : written.digits ≠ []

theorem Written.isNaN_value (written : Written) : written.value.isNaN = false :=
  Decimal.Numeral.isNaN_toFloat _ _ _

namespace Registry

variable {registry : Registry}

/-- The sign of a number word is one of its operators. -/
theorem valid_of_proper {written : Written} (proper : written.Proper)
    (numeric : registry.isNumberWord (String.ofList written.chars) = true) :
    written.Valid registry true := by
  refine ⟨?_, proper.digits, proper.nonempty⟩
  intro c member
  have plusOrMinus := proper.sign c member
  refine ⟨rfl, plusOrMinus, ?_⟩
  rw [isNumberWord, String.toList_ofList, List.all_eq_true] at numeric
  have char := numeric c (List.mem_append_left _ (Option.mem_toList.2 member))
  have notNumber : isNumberChar c = false := by
    rcases plusOrMinus with rfl | rfl <;> rfl
  rwa [notNumber, Bool.false_or] at char

theorem classify_eq_literal_iff {text : String} {value : Float} :
    registry.classify text false = .ok (.literal value) ↔ registry.valueOf text = .ok value := by
  change (registry.valueOf text).map Item.literal = _ ↔ _
  cases registry.valueOf text with
  | error error => simp [Except.map]
  | ok other => simp [Except.map]

/-- A number word of a source is a literal when written as a number, and an error otherwise. -/
theorem Built.classify_numberWord (built : registry.Built) {source : List Char} {text : String}
    (member : .word text ∈ Token.ofSource registry.isOperator source)
    (numeric : registry.isNumberWord text = true) :
    (∀ value, registry.classify text false = .ok (.literal value) ↔
      ∃ written : Written, written.Proper ∧ String.ofList written.chars = text ∧
        written.value = value) ∧
    (registry.classify text false = .error ⟨.number, text⟩ ↔
      ¬ ∃ written : Written, written.Proper ∧ String.ofList written.chars = text) := by
  obtain ⟨position, wordAt⟩ := Scan.exists_wordAt_of_mem built.unreserved (.inl member)
  have literal (value : Float) : registry.classify text false = .ok (.literal value) ↔
      ∃ written : Written, written.Proper ∧ String.ofList written.chars = text ∧
        written.value = value := by
    rw [classify_eq_literal_iff]
    constructor
    · intro known
      generalize shape : text.toList = chars at wordAt
      cases wordAt with
      | @intro c rest notReserved sign tail =>
          have same : text = String.ofList (c :: rest) := by
            rw [← shape, String.ofList_toList]
          rw [same] at known numeric
          rw [valueOf, if_pos numeric] at known
          split at known
          next found =>
            cases known
            obtain ⟨written, valid, chars, value⟩ :=
              exists_written_of_number? built.checked.operator
                (fun other member => (tail other member).2) numeric found
            refine ⟨written, ⟨?_, valid.digits, valid.nonempty⟩, by rw [chars, same], value⟩
            exact fun s signed => (valid.sign s signed).2.1
          next => cases known
    · rintro ⟨written, proper, rfl, rfl⟩
      exact valueOf_chars (valid_of_proper proper numeric)
  refine ⟨literal, ?_⟩
  constructor
  · rintro refused ⟨written, proper, chars⟩
    cases refused.symm.trans ((literal written.value).2 ⟨written, proper, chars, rfl⟩)
  · intro unwritten
    cases found : number? text with
    | none =>
        change (registry.valueOf text).map Item.literal = _
        rw [valueOf, if_pos numeric, found]
        rfl
    | some value =>
        have known : registry.valueOf text = .ok value := by
          rw [valueOf, if_pos numeric, found]
        obtain ⟨written, proper, chars, _⟩ := (literal value).1 (classify_eq_literal_iff.2 known)
        exact absurd ⟨written, proper, chars⟩ unwritten

/-! ## Every symbol and every word -/

/-- A misplaced sign is the end of the compilation. -/
theorem assembled_of_barred (symbols : Unreserved registry.isOperator) {before : List Char}
    {c : Char} (reached : registry.ReadsPast before) (known : registry.isOperator c = true)
    (barred : Scan.SignBarred registry.isOperator before) :
    registry.assembled (before ++ [c]) = .error (.malformed "") := by
  obtain ⟨assembly, accepted⟩ := reached
  have position := Scan.positionAfter symbols (ReadsPast.placed ⟨assembly, accepted⟩)
  have nested := position.eq_nested_iff.2 barred
  rw [assembled_concat, accepted, Scan.read_misplacedSign known nested]
  rfl

/-- A sign that may stand where it does is read past. -/
theorem readsPast_of_sign {before : List Char} {c : Char} (reached : registry.ReadsPast before)
    (nothing : ((Scan.after registry.isOperator before).read registry.isOperator c).1 = []) :
    registry.ReadsPast (before ++ [c]) := by
  obtain ⟨assembly, accepted⟩ := reached
  refine ⟨assembly, ?_⟩
  rw [assembled_concat, accepted, nothing]
  rfl

/-- A symbol that the compilation comes to, by what stands before it. -/
theorem Built.reads_symbol (built : registry.Built) {before after : List Char} {c : Char}
    {expression : String} (split : (Text.stripBlanks expression).toList = before ++ c :: after)
    (known : registry.isOperator c = true) (reached : registry.ReadsPast before) (maxDepth : Int) :
    let read := (Scan.after registry.isOperator before).read registry.isOperator c
    (.operator c ∈ read.1 ↔ ¬ Scan.SignPlace registry.isOperator before) ∧
      (Scan.SignPlace registry.isOperator before →
        (¬ registry.ReadsPast (before ++ [c]) ∧
            compile registry expression maxDepth = .error (.malformed "") ↔
          Scan.SignBarred registry.isOperator before)) ∧
      (read = ([], ⟨.operand, [c]⟩) ↔
        Scan.SignPlace registry.isOperator before ∧
          ¬ Scan.SignBarred registry.isOperator before) := by
  have symbols := built.unreserved
  have reads := Scan.readsSymbol symbols reached.placed known
  dsimp only
  generalize read : (Scan.after registry.isOperator before).read registry.isOperator c = outcome
    at reads
  cases reads with
  | operator notSign => simp [notSign]
  | barred barred =>
      have refused := assembled_of_barred symbols reached known barred
      have begins : before ++ [c] <+: (Text.stripBlanks expression).toList :=
        ⟨after, by simp [split]⟩
      have answer := compile_of_prefix refused begins maxDepth
      have stops : ¬ registry.ReadsPast (before ++ [c]) := by
        rintro ⟨assembly, accepted⟩
        cases refused.symm.trans accepted
      simp [barred, barred.signPlace, stops, answer]
  | sign place free =>
      have goesOn := readsPast_of_sign reached (by rw [read])
      simp [place, free, goesOn]

/--
An operator symbol that the compilation comes to is a candidate for a sign at the start, after an
opening bracket and after an operator, and an operator everywhere else. A candidate stops the
compilation after a bracket that itself follows a bracket or an operator, and begins a word
otherwise. So the words of a source have no operator symbol but as their first character, and a
word that could be a number is one exactly when it is written as one.
-/
theorem Built.reads_signs_and_numbers (built : registry.Built) (expression : String)
    (maxDepth : Int) :
    let isOperator := registry.isOperator
    let source := (Text.stripBlanks expression).toList
    (∀ before c after, source = before ++ c :: after → isOperator c = true →
      registry.ReadsPast before →
        let read := (Scan.after isOperator before).read isOperator c
        (.operator c ∈ read.1 ↔ ¬ Scan.SignPlace isOperator before) ∧
        (Scan.SignPlace isOperator before →
          (¬ registry.ReadsPast (before ++ [c]) ∧
              compile registry expression maxDepth = .error (.malformed "") ↔
            Scan.SignBarred isOperator before)) ∧
        (read = ([], ⟨.operand, [c]⟩) ↔
          Scan.SignPlace isOperator before ∧ ¬ Scan.SignBarred isOperator before)) ∧
    (∀ text, .word text ∈ Token.ofSource isOperator source ∨
        .call text ∈ Token.ofSource isOperator source →
      ∃ first rest, text.toList = first :: rest ∧ ∀ c ∈ rest, isOperator c = false) ∧
    (∀ text, .word text ∈ Token.ofSource isOperator source → registry.isNumberWord text = true →
      (∀ value, registry.classify text false = .ok (.literal value) ↔
        ∃ written : Written, written.Proper ∧ String.ofList written.chars = text ∧
          written.value = value ∧ value.isNaN = false) ∧
      (registry.classify text false = .error ⟨.number, text⟩ ↔
        ¬ ∃ written : Written, written.Proper ∧ String.ofList written.chars = text)) := by
  refine ⟨?_, ?_, ?_⟩
  · intro before c after split known reached
    exact built.reads_symbol split known reached maxDepth
  · intro text member
    obtain ⟨position, wordAt⟩ := Scan.exists_wordAt_of_mem built.unreserved member
    generalize text.toList = chars at wordAt
    cases wordAt with
    | @intro c rest notReserved sign tail =>
        exact ⟨c, rest, rfl, fun other inRest => (tail other inRest).2⟩
  · intro text member numeric
    obtain ⟨literal, refused⟩ := built.classify_numberWord member numeric
    refine ⟨?_, refused⟩
    intro value
    rw [literal]
    constructor
    · rintro ⟨written, proper, chars, rfl⟩
      exact ⟨written, proper, chars, rfl, written.isNaN_value⟩
    · rintro ⟨written, proper, chars, same, _⟩
      exact ⟨written, proper, chars, same⟩

end Registry

/-- The sign after the second bracket is barred, and the one after the operator begins a number. -/
theorem Registry.Built.reads_signs_and_numbers_catalog :
    compile Catalog.registry "2 * (-3)" defaultMaxDepth = .error (.malformed "") ∧
      ∃ written : Written, written.Proper ∧ String.ofList written.chars = "-3" ∧
        written.value.isNaN = false := by
  have built := Catalog.built .machine
  obtain ⟨symbols, _, _⟩ := built.reads_signs_and_numbers "2 * (-3)" defaultMaxDepth
  obtain ⟨_, barred, _⟩ := symbols ['2', '*', '('] '-' ['3', ')'] rfl rfl ⟨_, rfl⟩
  have afterOperator : Scan.EndsInOperator Catalog.registry.isOperator ['2', '*'] :=
    ⟨['2'], '*', rfl, by decide⟩
  obtain ⟨_, stops⟩ := (barred (.inr (.inl rfl))).2 ⟨['2', '*'], rfl, .inr afterOperator⟩
  obtain ⟨_, _, numbers⟩ := built.reads_signs_and_numbers "2 * -3" defaultMaxDepth
  obtain ⟨literal, _⟩ := numbers "-3" (by decide) (by decide)
  obtain ⟨written, proper, chars, value, number⟩ :=
    (literal (Written.value ⟨some '-', ['3'], none⟩)).1 rfl
  exact ⟨stops, written, proper, chars, value ▸ number⟩

end Calculator
