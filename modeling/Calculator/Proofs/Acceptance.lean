import Calculator.Proofs.Grammar
import Calculator.Proofs.Phrase

/-!
# What the grammar derives is accepted

The scan makes a phrase of the characters of every expression, so the assembly
accepts them. In an expression no operand follows a closing bracket.
-/

namespace Calculator

namespace Context

/-- Where the scan is in a context. -/
def position : Context → Position
  | .start => .start
  | .operator | .call => .opened
  | .separator => .operand
  | .bracket outer => outer.position.afterBracket

theorem position_bracket (outer : Context) :
    (bracket outer).position = .opened ∨ (bracket outer).position = .nested := by
  rw [position]
  cases outer.position with
  | start => exact .inl rfl
  | operand => exact .inl rfl
  | opened => exact .inr rfl
  | nested => exact .inr rfl

theorem allowsSign_iff (context : Context) :
    context.allowsSign = true ↔ context.position.TakesSign := by
  have nested (outer : Context) : ¬ (bracket (bracket outer)).position.TakesSign := by
    rw [position]
    rcases position_bracket outer with opened | nested
    · rw [opened]
      simp [Position.afterBracket, Position.TakesSign]
    · rw [nested]
      simp [Position.afterBracket, Position.TakesSign]
  cases context with
  | start => simp [allowsSign, position, Position.TakesSign]
  | operator => simp [allowsSign, position, Position.TakesSign]
  | separator => simp [allowsSign, position, Position.TakesSign]
  | call => simp [allowsSign, position, Position.TakesSign]
  | bracket outer =>
      cases outer with
      | start => simp [allowsSign, position, Position.afterBracket, Position.TakesSign]
      | operator => simp [allowsSign, position, Position.afterBracket, Position.TakesSign]
      | separator => simp [allowsSign, position, Position.afterBracket, Position.TakesSign]
      | call => simp [allowsSign, position, Position.afterBracket, Position.TakesSign]
      | bracket inner =>
          constructor
          · intro allowed
            cases allowed
          · intro takes
            exact absurd takes (nested inner)

end Context

variable {registry : Registry}

/-! ## Words of the grammar -/

namespace Registry

theorem Legible.not_reserved (legible : registry.Legible) : Unreserved registry.isOperator :=
  fun _ operator => (legible.operator operator).notReserved

theorem wordAt_of_usable {name : String} (usable : ¬ registry.Unusable name) (position : Position) :
    WordAt registry.isOperator position name.toList := by
  have free (c : Char) (member : c ∈ name.toList) := not_reserved_of_usable usable member
  cases shape : name.toList with
  | nil => exact absurd shape (ne_empty_of_usable usable)
  | cons c rest =>
      rw [shape] at free
      obtain ⟨notReserved, notOperator⟩ := free c (List.mem_cons_self ..)
      refine .intro notReserved ?_ fun other member => free other (List.mem_cons_of_mem _ member)
      intro operator
      rw [notOperator] at operator
      cases operator

end Registry

/-- The digits and the point of a number are no characters that end a word. -/
theorem Written.Valid.free_of_mem_body (legible : registry.Legible) {signed : Bool}
    {written : Written} (valid : written.Valid registry signed) {c : Char}
    (member : c ∈ written.body) : isReserved c = false ∧ registry.isOperator c = false := by
  have number : isNumberChar c = true := by
    rcases mem_body member with digit | point
    · exact Registry.isNumberChar_iff.2 (.inl (Text.isDigit_ascii (valid.digits c digit)))
    · exact Registry.isNumberChar_iff.2 (.inr point)
  constructor
  · rw [Bool.eq_false_iff]
    intro reserved
    simp only [isReserved, Bool.or_eq_true, decide_eq_true_eq] at reserved
    rcases reserved with (rfl | rfl) | rfl
    · exact absurd number (by decide)
    · exact absurd number (by decide)
    · exact absurd number (by decide)
  · rw [Bool.eq_false_iff]
    intro operator
    rw [(legible.operator operator).notNumber] at number
    cases number

theorem Written.Valid.wordAt (legible : registry.Legible) {signed : Bool} {written : Written}
    (valid : written.Valid registry signed) {position : Position}
    (allowed : signed = true → position.TakesSign) :
    WordAt registry.isOperator position written.chars := by
  have inBody (c : Char) (member : c ∈ written.body) :
      isReserved c = false ∧ registry.isOperator c = false :=
    valid.free_of_mem_body legible member
  obtain ⟨sign, whole, fraction⟩ := written
  cases sign with
  | some c =>
      obtain ⟨isSigned, _, operator⟩ := valid.sign c rfl
      exact .intro (legible.not_reserved c operator) (fun _ => allowed isSigned) inBody
  | none =>
      change WordAt _ _ (Written.body _)
      cases shape : Written.body ⟨none, whole, fraction⟩ with
      | nil =>
          cases fraction with
          | none => exact absurd (by simpa [Written.digits, Written.body] using shape) valid.nonempty
          | some fraction => simp [Written.body] at shape
      | cons c rest =>
          rw [shape] at inBody
          obtain ⟨notReserved, notOperator⟩ := inBody c (List.mem_cons_self ..)
          refine .intro notReserved ?_ fun other member => inBody other (List.mem_cons_of_mem _ member)
          intro operator
          rw [notOperator] at operator
          cases operator

/-! ## What the grammar derives is accepted -/

theorem Registry.isOperator_of_find? {symbol : Char} {definition : Operator}
    (known : registry.operators.find? symbol = some definition) :
    registry.isOperator symbol = true := by
  rw [isOperator, Table.contains, known]
  rfl

/-- Nothing but what may follow an operand follows a closing bracket of the grammar. -/
theorem Derives.detached (legible : registry.Legible) {signs : Context → Bool} {shape : Shape}
    {context : Context} {chars : List Char}
    (derives : Derives registry signs shape context chars) {after : List Char}
    (ends : Ends registry.isOperator after) (detached : Detached registry.isOperator after) :
    Detached registry.isOperator (chars ++ after) := by
  induction derives generalizing after with
  | @number context written valid =>
      have wordAt : WordAt registry.isOperator .start written.chars :=
        valid.wordAt legible fun _ => .inl rfl
      exact detached.append _ (wordAt.not_mem rfl)
  | binding found =>
      have wordAt := Registry.wordAt_of_usable (legible.binding found) .start
      exact detached.append _ (wordAt.not_mem rfl)
  | bracket _ ih =>
      have inside := ih (.closeBracket after) (.close ends detached)
      have opened := inside.append ['('] (by decide)
      simpa using opened
  | call found _ _ ih =>
      have wordAt := Registry.wordAt_of_usable (legible.function found) .start
      have inside := ih (.closeBracket after) (.close ends detached)
      have opened := inside.append ['('] (by decide)
      have called := opened.append _ (wordAt.not_mem rfl)
      simpa using called
  | single _ ih => exact ih ends detached
  | @operator _ _ symbol _ _ _ _ _ known _ ihLeft ihRight =>
      have operator := Registry.isOperator_of_find? known
      have notClosing : ')' ∉ [symbol] := by
        intro member
        rw [← List.mem_singleton.1 member] at operator
        have notReserved := legible.not_reserved ')' operator
        cases notReserved
      have right := (ihRight ends detached).append _ notClosing
      have left := ihLeft (.operator operator _) right
      simpa using left
  | argument _ ih => exact ih ends detached
  | separator _ _ ihLeft ihRight =>
      have right := (ihRight ends detached).append [','] (by decide)
      have left := ihLeft (.separator _) right
      simpa using left

/-- The part of the tokens that a shape comes from. -/
def Shape.part : Shape → Part
  | .operand tree => .operands [tree]
  | .expression chain => .chain (chain.map fun tree => [tree])
  | .arguments trees => .arguments trees.length trees

theorem Chain.grouped_singletons (chain : Chain Tree) :
    (chain.map fun tree => [tree]).grouped Tree.joinForests = [chain.tree] :=
  grouped_map (fun _ _ _ => rfl) chain

/-- The scan makes a phrase of the characters, whatever may follow them. -/
def Tokenizes (registry : Registry) (shape : Shape) (context : Context) (chars : List Char) : Prop :=
  ∃ tokens, Phrase registry shape.part tokens ∧ ∀ after, Ends registry.isOperator after →
    Scan.tokens registry.isOperator ⟨context.position, []⟩ (chars ++ after) =
      tokens ++ Scan.tokens registry.isOperator ⟨.operand, []⟩ after

namespace Tokenizes

variable {context : Context}

theorem word (legible : registry.Legible) {word : List Char} {value : Float}
    (wordAt : WordAt registry.isOperator context.position word)
    (known : registry.valueOf (String.ofList word) = .ok value) :
    Tokenizes registry (.operand (.node (.literal value) [])) context word := by
  refine ⟨[.word (String.ofList word)], .word known .empty, ?_⟩
  intro after ends
  exact Scan.tokens_word legible.not_reserved wordAt ends

theorem bracket (legible : registry.Legible) {chain : Chain Tree} {inner : List Char}
    (inside : Tokenizes registry (.expression chain) (.bracket context) inner) :
    Tokenizes registry (.operand chain.tree) context ('(' :: inner ++ [')']) := by
  obtain ⟨tokens, phrase, scanned⟩ := inside
  refine ⟨.openBracket :: (tokens ++ [.closeBracket]), ?_, ?_⟩
  · have closed := Phrase.bracket phrase .empty
    rw [Chain.grouped_singletons] at closed
    exact closed
  · intro after ends
    have notOpening := legible.not_reserved.not_operator (c := '(') rfl
    have notClosing := legible.not_reserved.not_operator (c := ')') rfl
    have opened := Scan.tokens_openBracket ⟨context.position, []⟩ notOpening rfl
      (inner ++ ')' :: after)
    have rest := scanned (')' :: after) (.closeBracket after)
    rw [Scan.tokens_closeBracket notClosing] at rest
    simp only [List.cons_append, List.append_assoc, List.nil_append] at opened rest ⊢
    rw [opened]
    exact congrArg (Token.openBracket :: ·) rest

theorem call (legible : registry.Legible) {name : String} {definition : Function}
    {trees : List Tree} {inner : List Char}
    (found : registry.functions.find? name = some definition)
    (inside : Tokenizes registry (.arguments trees) .call inner)
    (count : trees.length = definition.arity) :
    Tokenizes registry (.operand (.node (.function definition) trees)) context
      (name.toList ++ '(' :: inner ++ [')']) := by
  obtain ⟨tokens, phrase, scanned⟩ := inside
  have wordAt := Registry.wordAt_of_usable (legible.function found) context.position
  have known : registry.callee name = .ok definition := by
    rw [Registry.callee, found]
  refine ⟨.call name :: (tokens ++ [.closeBracket]), ?_, ?_⟩
  · rw [Shape.part, count] at phrase
    have closed := Phrase.call known phrase .empty
    rw [List.append_nil] at closed
    exact closed
  · intro after ends
    have notClosing := legible.not_reserved.not_operator (c := ')') rfl
    have called := Scan.tokens_wordCall legible.not_reserved wordAt (inner ++ ')' :: after)
    have rest := scanned (')' :: after) (.closeBracket after)
    rw [Scan.tokens_closeBracket notClosing] at rest
    rw [String.ofList_toList] at called
    simp only [List.cons_append, List.append_assoc, List.nil_append] at called rest ⊢
    rw [called]
    exact congrArg (Token.call name :: ·) rest

theorem operator {chain : Chain Tree} {symbol : Char} {definition : Operator} {tree : Tree}
    {before after : List Char} (left : Tokenizes registry (.expression chain) context before)
    (known : registry.operators.find? symbol = some definition)
    (right : Tokenizes registry (.operand tree) .operator after) :
    Tokenizes registry (.expression (chain.extend definition tree)) context
      (before ++ symbol :: after) := by
  obtain ⟨tokensLeft, phraseLeft, scannedLeft⟩ := left
  obtain ⟨tokensRight, phraseRight, scannedRight⟩ := right
  refine ⟨tokensLeft ++ .operator symbol :: tokensRight, ?_, ?_⟩
  · have extended := Phrase.operator phraseLeft known phraseRight
    rw [← Chain.map_extend] at extended
    exact extended
  · intro rest ends
    have isOperator := Registry.isOperator_of_find? known
    have later : Scan.tokens registry.isOperator ⟨.opened, []⟩ (after ++ rest) = _ :=
      scannedRight rest ends
    rw [List.append_assoc, List.cons_append, scannedLeft _ (.operator isOperator _),
      Scan.tokens_operator isOperator rfl, later, List.append_assoc, List.cons_append]
    rfl

theorem separator (legible : registry.Legible) {trees : List Tree} {chain : Chain Tree}
    {before after : List Char} (left : Tokenizes registry (.arguments trees) context before)
    (right : Tokenizes registry (.expression chain) .separator after) :
    Tokenizes registry (.arguments (trees ++ [chain.tree])) context (before ++ ',' :: after) := by
  obtain ⟨tokensLeft, phraseLeft, scannedLeft⟩ := left
  obtain ⟨tokensRight, phraseRight, scannedRight⟩ := right
  refine ⟨tokensLeft ++ .separator :: tokensRight, ?_, ?_⟩
  · have more := Phrase.separator phraseLeft phraseRight
    rw [Chain.grouped_singletons] at more
    rw [Shape.part, List.length_append, List.length_singleton]
    exact more
  · intro rest ends
    have notOperator := legible.not_reserved.not_operator (c := ',') rfl
    have later : Scan.tokens registry.isOperator ⟨.operand, []⟩ (after ++ rest) = _ :=
      scannedRight rest ends
    rw [List.append_assoc, List.cons_append, scannedLeft _ (.separator _),
      Scan.tokens_separator notOperator, later, List.append_assoc, List.cons_append]
    rfl

end Tokenizes

theorem Derives.tokenizes (legible : registry.Legible) {shape : Shape} {context : Context}
    {chars : List Char} (derives : Derives registry Context.allowsSign shape context chars) :
    Tokenizes registry shape context chars := by
  induction derives with
  | @number context written valid =>
      exact .word legible (valid.wordAt legible (context.allowsSign_iff).1)
        (Registry.valueOf_chars valid)
  | @binding context name value found =>
      refine .word legible (Registry.wordAt_of_usable (legible.binding found) _) ?_
      rw [String.ofList_toList]
      exact Registry.valueOf_binding legible found
  | bracket _ ih => exact ih.bracket legible
  | call found _ count ih => exact .call legible found ih count
  | single _ ih =>
      obtain ⟨tokens, phrase, scanned⟩ := ih
      exact ⟨tokens, .single phrase, scanned⟩
  | operator _ known _ ihLeft ihRight => exact ihLeft.operator known ihRight
  | argument _ ih =>
      obtain ⟨tokens, phrase, scanned⟩ := ih
      have one := Phrase.argument phrase
      rw [Chain.grouped_singletons] at one
      exact ⟨tokens, one, scanned⟩
  | separator _ _ ihLeft ihRight => exact ihLeft.separator legible ihRight

/-- A derived source is assembled into the items of its tree. -/
theorem Derives.assemble (legible : registry.Legible) (ranked : registry.Ranked)
    {chain : Chain Tree} {source : List Char}
    (derives : Derives registry Context.allowsSign (.expression chain) .start source) :
    assemble registry source = .ok chain.tree.items := by
  obtain ⟨tokens, phrase, scanned⟩ := derives.tokenizes legible
  have whole : Token.ofSource registry.isOperator source = tokens := by
    have all := scanned [] .nil
    rw [List.append_nil] at all
    exact all.trans (List.append_nil _)
  refine (assemble_eq_ok_iff ranked).2 ⟨_, whole ▸ phrase, ?_⟩
  rw [Chain.grouped_singletons]
  simp [Tree.itemsOf]

end Calculator
