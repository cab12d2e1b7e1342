import Calculator.Proofs.Names
import Calculator.Token

/-!
# What the scan makes of a source

A word is scanned up to the next character that ends it, and a source without
misplaced signs is the characters of its tokens. When nothing but an operator,
a separator or another bracket follows a closing bracket, no operand follows
another directly.
-/

namespace Calculator

/-- No operator is written as a bracket or as the separator. -/
def Unreserved (isOperator : Char → Bool) : Prop :=
  ∀ c, isOperator c = true → isReserved c = false

theorem Unreserved.not_operator {isOperator : Char → Bool} (symbols : Unreserved isOperator)
    {c : Char} (reserved : isReserved c = true) : isOperator c = false := by
  rw [Bool.eq_false_iff]
  intro operator
  rw [symbols c operator] at reserved
  cases reserved

theorem Registry.Built.unreserved {registry : Registry} (built : registry.Built) :
    Unreserved registry.isOperator :=
  fun _ operator => (built.checked.operator operator).notReserved

theorem count_of_not_reserved {c : Char} (notReserved : isReserved c = false) :
    [c].count '(' = 0 ∧ [c].count ')' = 0 := by
  simp [isReserved_eq_false_iff.1 notReserved]

/-- The characters that may follow an operand come next, or none. -/
def Ends (isOperator : Char → Bool) (rest : List Char) : Prop :=
  ∀ c ∈ rest.head?, isOperator c = true ∨ c = ',' ∨ c = ')'

namespace Ends

variable {isOperator : Char → Bool}

theorem nil : Ends isOperator [] := by
  simp [Ends]

theorem operator {c : Char} (known : isOperator c = true) (rest : List Char) :
    Ends isOperator (c :: rest) := by
  intro first same
  cases same
  exact .inl known

theorem separator (rest : List Char) : Ends isOperator (',' :: rest) := by
  intro first same
  cases same
  exact .inr (.inl rfl)

theorem closeBracket (rest : List Char) : Ends isOperator (')' :: rest) := by
  intro first same
  cases same
  exact .inr (.inr rfl)

end Ends

/-- After every closing bracket comes what may follow an operand. -/
def Detached (isOperator : Char → Bool) (source : List Char) : Prop :=
  ∀ before after, source = before ++ ')' :: after → Ends isOperator after

namespace Detached

variable {isOperator : Char → Bool}

theorem nil : Detached isOperator [] := by
  simp [Detached]

theorem tail {c : Char} {rest : List Char} (detached : Detached isOperator (c :: rest)) :
    Detached isOperator rest := by
  rintro before after rfl
  exact detached (c :: before) after rfl

theorem ends {rest : List Char} (detached : Detached isOperator (')' :: rest)) :
    Ends isOperator rest :=
  detached [] rest rfl

theorem close {rest : List Char} (ends : Ends isOperator rest)
    (detached : Detached isOperator rest) : Detached isOperator (')' :: rest) := by
  intro before after split
  cases before with
  | nil =>
      cases split
      exact ends
  | cons c later =>
      cases split
      exact detached later after rfl

theorem append (word : List Char) {rest : List Char} (free : ')' ∉ word)
    (detached : Detached isOperator rest) : Detached isOperator (word ++ rest) := by
  induction word with
  | nil => exact detached
  | cons c word ih =>
      rw [List.mem_cons, not_or] at free
      intro before after split
      cases before with
      | nil =>
          cases split
          exact absurd rfl free.1
      | cons first later =>
          rw [List.cons_append] at split
          exact ih free.2 later after (List.cons.inj split).2

end Detached

namespace Token

/-- The characters that a token stands for; a misplaced sign stands for none. -/
def chars : Token → List Char
  | .word text => text.toList
  | .call text => text.toList ++ ['(']
  | .operator symbol => [symbol]
  | .openBracket => ['(']
  | .separator => [',']
  | .closeBracket => [')']
  | .misplacedSign => []

/-- The token starts no operand. -/
def Joins : Token → Prop
  | .operator _ | .separator | .closeBracket => True
  | _ => False

theorem joins_head {token : Token} {rest : List Token} (joins : token.Joins) :
    ∀ first ∈ (token :: rest).head?, first.Joins := by
  intro first same
  cases same
  exact joins

end Token

/-- A sign is read here, neither as an operator nor as misplaced. -/
def Position.TakesSign (position : Position) : Prop :=
  position = .start ∨ position = .opened

/-- The characters form a word where the scan is at the position. -/
inductive WordAt (isOperator : Char → Bool) (position : Position) : List Char → Prop where
  | intro {c : Char} {rest : List Char} (notReserved : isReserved c = false)
      (sign : isOperator c = true → position.TakesSign)
      (tail : ∀ other ∈ rest, isReserved other = false ∧ isOperator other = false) :
      WordAt isOperator position (c :: rest)

namespace WordAt

variable {isOperator : Char → Bool} {position : Position}

theorem ne_nil {word : List Char} (wordAt : WordAt isOperator position word) : word ≠ [] := by
  cases wordAt
  exact List.cons_ne_nil _ _

theorem not_mem {word : List Char} (wordAt : WordAt isOperator position word) {c : Char}
    (reserved : isReserved c = true) : c ∉ word := by
  intro member
  cases wordAt with
  | intro notReserved sign tail =>
      rcases List.mem_cons.1 member with rfl | later
      · rw [notReserved] at reserved
        cases reserved
      · rw [(tail c later).1] at reserved
        cases reserved

theorem snoc {word : List Char} {c : Char} (wordAt : WordAt isOperator position word)
    (notReserved : isReserved c = false) (notOperator : isOperator c = false) :
    WordAt isOperator position (word ++ [c]) := by
  cases wordAt with
  | intro first sign tail =>
      refine .intro first sign ?_
      intro other member
      rcases List.mem_append.1 member with earlier | last
      · exact tail other earlier
      · rw [List.mem_singleton.1 last]
        exact ⟨notReserved, notOperator⟩

end WordAt

/--
Tokens that a scan emits from a position on: words are formed as the scan forms them, and what
follows a word or a closing bracket starts no operand.
-/
inductive Fits (isOperator : Char → Bool) : Position → List Token → Prop where
  | nil {position : Position} : Fits isOperator position []
  | word {position : Position} {word : List Char} {rest : List Token}
      (wordAt : WordAt isOperator position word) (joins : ∀ token ∈ rest.head?, token.Joins)
      (later : Fits isOperator .operand rest) :
      Fits isOperator position (.word (String.ofList word) :: rest)
  | call {position : Position} {word : List Char} {rest : List Token}
      (wordAt : WordAt isOperator position word) (later : Fits isOperator .opened rest) :
      Fits isOperator position (.call (String.ofList word) :: rest)
  | operator {position : Position} {symbol : Char} {rest : List Token}
      (later : Fits isOperator .opened rest) : Fits isOperator position (.operator symbol :: rest)
  | openBracket {position : Position} {rest : List Token}
      (later : Fits isOperator position.afterBracket rest) :
      Fits isOperator position (.openBracket :: rest)
  | separator {position : Position} {rest : List Token} (later : Fits isOperator .operand rest) :
      Fits isOperator position (.separator :: rest)
  | closeBracket {position : Position} {rest : List Token}
      (joins : ∀ token ∈ rest.head?, token.Joins) (later : Fits isOperator .operand rest) :
      Fits isOperator position (.closeBracket :: rest)

namespace Fits

variable {isOperator : Char → Bool}

theorem joins_of_append {first second : List Token}
    (joins : ∀ token ∈ (first ++ second).head?, token.Joins) :
    ∀ token ∈ first.head?, token.Joins := by
  cases first with
  | nil => simp
  | cons token rest => exact joins

theorem take {position : Position} {first second : List Token}
    (fits : Fits isOperator position (first ++ second)) : Fits isOperator position first := by
  induction first generalizing position with
  | nil => exact .nil
  | cons token rest ih =>
      cases fits with
      | word wordAt joins later => exact .word wordAt (joins_of_append joins) (ih later)
      | call wordAt later => exact .call wordAt (ih later)
      | operator later => exact .operator (ih later)
      | openBracket later => exact .openBracket (ih later)
      | separator later => exact .separator (ih later)
      | closeBracket joins later => exact .closeBracket (joins_of_append joins) (ih later)

theorem drop {position : Position} {first second : List Token}
    (fits : Fits isOperator position (first ++ second)) :
    ∃ reached, Fits isOperator reached second := by
  induction first generalizing position with
  | nil => exact ⟨position, fits⟩
  | cons token rest ih =>
      cases fits with
      | word _ _ later => exact ih later
      | call _ later => exact ih later
      | operator later => exact ih later
      | openBracket later => exact ih later
      | separator later => exact ih later
      | closeBracket _ later => exact ih later

end Fits

namespace Scan

variable {isOperator : Char → Bool}

/-! ## A source in two parts -/

theorem run_append (isOperator : Char → Bool) (scan : Scan) (first second : List Char) :
    scan.run isOperator (first ++ second) =
      ((scan.run isOperator first).1 ++ ((scan.run isOperator first).2.run isOperator second).1,
        ((scan.run isOperator first).2.run isOperator second).2) := by
  induction first generalizing scan with
  | nil => rfl
  | cons c rest ih => simp [run, ih]

theorem tokens_eq_run (isOperator : Char → Bool) (scan : Scan) (source : List Char) :
    scan.tokens isOperator source =
      (scan.run isOperator source).1 ++ (scan.run isOperator source).2.finish := by
  have whole := scan.tokens_append isOperator source []
  rwa [List.append_nil] at whole

/-! ## One character -/

theorem read_operator {scan : Scan} {c : Char} (known : isOperator c = true)
    (position : scan.position = .operand) :
    scan.read isOperator c = scan.close (.operator c) .opened := by
  simp [read, known, position, Position.allowsSign]

theorem read_misplacedSign {scan : Scan} {c : Char} (known : isOperator c = true)
    (position : scan.position = .nested) : scan.read isOperator c = ([.misplacedSign], scan) := by
  simp [read, known, position]

theorem read_openBracket (scan : Scan) (notOperator : isOperator '(' = false) :
    scan.read isOperator '(' =
      (if scan.word = [] then [.openBracket] else [.call scan.text],
        ⟨scan.position.afterBracket, []⟩) := by
  simp [read, notOperator]

theorem read_closeBracket (scan : Scan) (notOperator : isOperator ')' = false) :
    scan.read isOperator ')' = scan.close .closeBracket .operand := by
  simp [read, notOperator]

theorem read_separator (scan : Scan) (notOperator : isOperator ',' = false) :
    scan.read isOperator ',' = scan.close .separator .operand := by
  simp [read, notOperator]

theorem read_extend {scan : Scan} {c : Char} (notReserved : isReserved c = false)
    (sign : isOperator c = true → scan.position.TakesSign) :
    scan.read isOperator c = scan.extend c := by
  cases known : isOperator c with
  | true =>
      rcases sign known with start | opened
      · simp [read, known, start, Position.allowsSign]
      · simp [read, known, opened, Position.allowsSign]
  | false =>
      simp [read, known, isReserved_eq_false_iff.1 notReserved]

/-- The word that has begun ends before the token. -/
theorem close_eq (scan : Scan) (token : Token) (position : Position) :
    scan.close token position = (scan.finish ++ [token], ⟨position, []⟩) := by
  by_cases empty : scan.word = []
  · simp [close, finish, empty]
  · simp [close, finish, empty]

theorem tokens_operator {scan : Scan} {c : Char} (known : isOperator c = true)
    (position : scan.position = .operand) (rest : List Char) :
    scan.tokens isOperator (c :: rest) =
      scan.finish ++ .operator c :: tokens isOperator ⟨.opened, []⟩ rest := by
  simp [tokens, read_operator known position, close_eq]

theorem tokens_openBracket (scan : Scan) (notOperator : isOperator '(' = false)
    (empty : scan.word = []) (rest : List Char) :
    scan.tokens isOperator ('(' :: rest) =
      .openBracket :: tokens isOperator ⟨scan.position.afterBracket, []⟩ rest := by
  simp [tokens, read_openBracket scan notOperator, empty]

theorem tokens_call {scan : Scan} (notOperator : isOperator '(' = false)
    (word : scan.word ≠ []) (rest : List Char) :
    scan.tokens isOperator ('(' :: rest) =
      .call scan.text :: tokens isOperator ⟨scan.position.afterBracket, []⟩ rest := by
  simp [tokens, read_openBracket scan notOperator, word]

theorem tokens_closeBracket {scan : Scan} (notOperator : isOperator ')' = false)
    (rest : List Char) :
    scan.tokens isOperator (')' :: rest) =
      scan.finish ++ .closeBracket :: tokens isOperator ⟨.operand, []⟩ rest := by
  simp [tokens, read_closeBracket scan notOperator, close_eq]

theorem tokens_separator {scan : Scan} (notOperator : isOperator ',' = false)
    (rest : List Char) :
    scan.tokens isOperator (',' :: rest) =
      scan.finish ++ .separator :: tokens isOperator ⟨.operand, []⟩ rest := by
  simp [tokens, read_separator scan notOperator, close_eq]

theorem tokens_extend {scan : Scan} {c : Char} (notReserved : isReserved c = false)
    (sign : isOperator c = true → scan.position.TakesSign) (rest : List Char) :
    scan.tokens isOperator (c :: rest) = tokens isOperator ⟨.operand, c :: scan.word⟩ rest := by
  simp [tokens, read_extend notReserved sign, extend]

/-- A symbol is emitted for a character that is an operator only. -/
theorem isOperator_of_mem_read {scan : Scan} {c symbol : Char}
    (member : .operator symbol ∈ (scan.read isOperator c).1) : isOperator symbol = true := by
  have not_closed {token : Token} {position : Position} (other : token ≠ .operator symbol) :
      .operator symbol ∉ (scan.close token position).1 := by
    rw [close_eq]
    by_cases empty : scan.word = []
    · simp [finish, empty, other.symm]
    · simp [finish, empty, other.symm]
  unfold read at member
  split at member
  next known =>
    split at member
    · simp at member
    · split at member
      · simp [extend] at member
      · by_cases same : c = symbol
        · exact same ▸ known
        · have other : Token.operator c ≠ .operator symbol := by
            intro equal
            exact same (Token.operator.inj equal)
          exact absurd member (not_closed other)
  next =>
    split at member
    · split at member
      · simp at member
      · simp at member
    · split at member
      · exact absurd member (not_closed nofun)
      · split at member
        · exact absurd member (not_closed nofun)
        · simp [extend] at member

theorem isOperator_of_mem_tokens {scan : Scan} {source : List Char} {symbol : Char}
    (member : .operator symbol ∈ scan.tokens isOperator source) : isOperator symbol = true := by
  induction source generalizing scan with
  | nil =>
      by_cases empty : scan.word = []
      · simp [tokens, finish, empty] at member
      · simp [tokens, finish, empty] at member
  | cons c rest ih =>
      rcases List.mem_append.1 member with now | later
      · exact isOperator_of_mem_read now
      · exact ih later

/-- A character is read as an operator, a misplaced sign, a bracket or separator, or into a word. -/
theorem read_cases (symbols : Unreserved isOperator) (scan : Scan)
    (c : Char) :
    (isOperator c = true ∧ scan.position = .operand) ∨
      (isOperator c = true ∧ scan.position = .nested) ∨
      (isOperator c = false ∧ (c = '(' ∨ c = ')' ∨ c = ',')) ∨
      (isReserved c = false ∧ (isOperator c = true → scan.position.TakesSign)) := by
  cases known : isOperator c with
  | true =>
      cases position : scan.position with
      | start => exact .inr (.inr (.inr ⟨symbols c known, fun _ => .inl rfl⟩))
      | operand => exact .inl ⟨rfl, rfl⟩
      | opened => exact .inr (.inr (.inr ⟨symbols c known, fun _ => .inr rfl⟩))
      | nested => exact .inr (.inl ⟨rfl, rfl⟩)
  | false =>
      cases reserved : isReserved c with
      | true =>
          simp only [isReserved, Bool.or_eq_true, decide_eq_true_eq, or_assoc] at reserved
          exact .inr (.inr (.inl ⟨rfl, reserved⟩))
      | false =>
          refine .inr (.inr (.inr ⟨rfl, ?_⟩))
          intro operator
          cases operator

/-! ## From the source to its tokens -/

/-- The word that the scan has begun, if any, began at the position. -/
def Forming (isOperator : Char → Bool) (entry : Position) (scan : Scan) : Prop :=
  (scan.word = [] ∧ scan.position = entry) ∨
    (scan.position = .operand ∧ WordAt isOperator entry scan.word.reverse)

theorem Forming.fits {entry : Position} {scan : Scan} (forming : scan.Forming isOperator entry)
    {tokens : List Token} (joins : ∀ token ∈ tokens.head?, token.Joins)
    (fits : ∀ position, Fits isOperator position tokens) :
    Fits isOperator entry (scan.finish ++ tokens) := by
  rcases forming with ⟨empty, _⟩ | ⟨_, wordAt⟩
  · rw [finish, if_pos empty]
    exact fits entry
  · have word : scan.word ≠ [] := by
      intro empty
      rw [empty] at wordAt
      exact wordAt.ne_nil rfl
    rw [finish, if_neg word]
    exact .word wordAt joins (fits .operand)

theorem Forming.extend {entry : Position} {scan : Scan} (forming : scan.Forming isOperator entry)
    {c : Char} (notReserved : isReserved c = false)
    (sign : isOperator c = true → scan.position.TakesSign) :
    Forming isOperator entry ⟨.operand, c :: scan.word⟩ := by
  refine .inr ⟨rfl, ?_⟩
  rw [List.reverse_cons]
  rcases forming with ⟨empty, here⟩ | ⟨inside, wordAt⟩
  · rw [empty, ← here]
    exact .intro notReserved sign (by simp)
  · refine wordAt.snoc notReserved ?_
    rw [Bool.eq_false_iff]
    intro operator
    rcases sign operator with begin | opened
    · rw [inside] at begin
      cases begin
    · rw [inside] at opened
      cases opened

theorem chars_finish (scan : Scan) : scan.finish.flatMap Token.chars = scan.word.reverse := by
  by_cases empty : scan.word = []
  · simp [finish, empty]
  · simp [finish, empty, Token.chars, text]

theorem joins_of_ends (symbols : Unreserved isOperator)
    {rest : List Char} (ends : Ends isOperator rest) :
    ∀ token ∈ (tokens isOperator ⟨.operand, []⟩ rest).head?, token.Joins := by
  cases rest with
  | nil => simp [tokens, finish]
  | cons c rest =>
      rcases ends c rfl with operator | rfl | rfl
      · rw [tokens_operator operator rfl]
        exact Token.joins_head trivial
      · rw [tokens_separator (symbols.not_operator rfl)]
        exact Token.joins_head trivial
      · rw [tokens_closeBracket (symbols.not_operator rfl)]
        exact Token.joins_head trivial

/-- The tokens of a detached source fit, unless a sign is misplaced. -/
theorem fits_tokens (symbols : Unreserved isOperator)
    {source : List Char} {entry : Position} {scan : Scan} (forming : scan.Forming isOperator entry)
    (detached : Detached isOperator source)
    (placed : .misplacedSign ∉ scan.tokens isOperator source) :
    Fits isOperator entry (scan.tokens isOperator source) := by
  induction source generalizing entry scan with
  | nil =>
      have fits : Fits isOperator entry (scan.finish ++ []) := forming.fits (by simp) fun _ => .nil
      rw [List.append_nil] at fits
      exact fits
  | cons c rest ih =>
      rcases read_cases symbols scan c with ⟨operator, inside⟩ | ⟨operator, nested⟩ |
        ⟨_, rfl | rfl | rfl⟩ | ⟨notReserved, sign⟩
      · rw [tokens_operator operator inside] at placed ⊢
        simp only [List.mem_append, List.mem_cons, not_or] at placed
        refine forming.fits (Token.joins_head trivial) fun _ => .operator ?_
        exact ih (.inl ⟨rfl, rfl⟩) detached.tail placed.2.2
      · simp [tokens, read_misplacedSign operator nested] at placed
      · rcases forming with ⟨empty, here⟩ | ⟨inside, wordAt⟩
        · rw [tokens_openBracket scan (symbols.not_operator rfl) empty, here] at placed ⊢
          rw [List.mem_cons, not_or] at placed
          exact .openBracket (ih (.inl ⟨rfl, rfl⟩) detached.tail placed.2)
        · have word : scan.word ≠ [] := fun empty => wordAt.ne_nil (List.reverse_eq_nil_iff.2 empty)
          rw [tokens_call (symbols.not_operator rfl) word, inside] at placed ⊢
          rw [List.mem_cons, not_or] at placed
          exact .call wordAt (ih (.inl ⟨rfl, rfl⟩) detached.tail placed.2)
      · rw [tokens_closeBracket (symbols.not_operator rfl)] at placed ⊢
        simp only [List.mem_append, List.mem_cons, not_or] at placed
        refine forming.fits (Token.joins_head trivial) fun _ => .closeBracket ?_ ?_
        · exact joins_of_ends symbols detached.ends
        · exact ih (.inl ⟨rfl, rfl⟩) detached.tail placed.2.2
      · rw [tokens_separator (symbols.not_operator rfl)] at placed ⊢
        simp only [List.mem_append, List.mem_cons, not_or] at placed
        refine forming.fits (Token.joins_head trivial) fun _ => .separator ?_
        exact ih (.inl ⟨rfl, rfl⟩) detached.tail placed.2.2
      · rw [tokens_extend notReserved sign] at placed ⊢
        exact ih (forming.extend notReserved sign) detached.tail placed

/-- A source without misplaced signs is the characters of its tokens. -/
theorem chars_tokens (symbols : Unreserved isOperator)
    {source : List Char} {scan : Scan} (placed : .misplacedSign ∉ scan.tokens isOperator source) :
    (scan.tokens isOperator source).flatMap Token.chars = scan.word.reverse ++ source := by
  induction source generalizing scan with
  | nil =>
      rw [List.append_nil]
      exact chars_finish scan
  | cons c rest ih =>
      rcases read_cases symbols scan c with ⟨operator, inside⟩ | ⟨operator, nested⟩ |
        ⟨_, rfl | rfl | rfl⟩ | ⟨notReserved, sign⟩
      · rw [tokens_operator operator inside] at placed ⊢
        simp only [List.mem_append, List.mem_cons, not_or] at placed
        rw [List.flatMap_append, List.flatMap_cons, chars_finish, ih placed.2.2]
        rfl
      · simp [tokens, read_misplacedSign operator nested] at placed
      · by_cases empty : scan.word = []
        · rw [tokens_openBracket scan (symbols.not_operator rfl) empty] at placed ⊢
          rw [List.mem_cons, not_or] at placed
          rw [List.flatMap_cons, ih placed.2, empty]
          rfl
        · rw [tokens_call (symbols.not_operator rfl) empty] at placed ⊢
          rw [List.mem_cons, not_or] at placed
          rw [List.flatMap_cons, ih placed.2]
          simp [Token.chars, text]
      · rw [tokens_closeBracket (symbols.not_operator rfl)] at placed ⊢
        simp only [List.mem_append, List.mem_cons, not_or] at placed
        rw [List.flatMap_append, List.flatMap_cons, chars_finish, ih placed.2.2]
        rfl
      · rw [tokens_separator (symbols.not_operator rfl)] at placed ⊢
        simp only [List.mem_append, List.mem_cons, not_or] at placed
        rw [List.flatMap_append, List.flatMap_cons, chars_finish, ih placed.2.2]
        rfl
      · rw [tokens_extend notReserved sign] at placed ⊢
        rw [ih placed]
        simp

/-! ## From tokens to the source -/

theorem tokens_wordAt {position : Position} {word : List Char}
    (wordAt : WordAt isOperator position word) (rest : List Char) :
    tokens isOperator ⟨position, []⟩ (word ++ rest) =
      tokens isOperator ⟨.operand, word.reverse⟩ rest := by
  cases wordAt with
  | @intro c tail notReserved sign free =>
      have goesOn (begun : List Char) : tokens isOperator ⟨.operand, begun⟩ (tail ++ rest) =
          tokens isOperator ⟨.operand, tail.reverse ++ begun⟩ rest := by
        induction tail generalizing begun with
        | nil => rfl
        | cons next tail ih =>
            obtain ⟨notReserved, notOperator⟩ := free next (List.mem_cons_self ..)
            have sign : isOperator next = true → Position.TakesSign .operand := by
              intro operator
              rw [notOperator] at operator
              cases operator
            rw [List.cons_append, tokens_extend notReserved sign,
              ih (fun other member => free other (List.mem_cons_of_mem _ member))]
            simp
      rw [List.cons_append, tokens_extend notReserved sign, goesOn]
      simp

/-- A word before the end or before what may follow an operand is a token of its own. -/
theorem tokens_word (symbols : Unreserved isOperator)
    {position : Position} {word rest : List Char} (wordAt : WordAt isOperator position word)
    (ends : Ends isOperator rest) :
    tokens isOperator ⟨position, []⟩ (word ++ rest) =
      .word (String.ofList word) :: tokens isOperator ⟨.operand, []⟩ rest := by
  have finished : Scan.finish ⟨.operand, word.reverse⟩ = [.word (String.ofList word)] := by
    simp [finish, wordAt.ne_nil, text]
  rw [tokens_wordAt wordAt]
  cases rest with
  | nil => exact finished
  | cons c rest =>
      rcases ends c rfl with operator | rfl | rfl
      · rw [tokens_operator operator rfl, tokens_operator operator rfl, finished]
        rfl
      · have notOperator := symbols.not_operator (c := ',') rfl
        rw [tokens_separator notOperator, tokens_separator notOperator, finished]
        rfl
      · have notOperator := symbols.not_operator (c := ')') rfl
        rw [tokens_closeBracket notOperator, tokens_closeBracket notOperator, finished]
        rfl

/-- A word before an opening bracket is a call. -/
theorem tokens_wordCall (symbols : Unreserved isOperator)
    {position : Position} {word : List Char} (wordAt : WordAt isOperator position word)
    (rest : List Char) :
    tokens isOperator ⟨position, []⟩ (word ++ '(' :: rest) =
      .call (String.ofList word) :: tokens isOperator ⟨.opened, []⟩ rest := by
  have begun : word.reverse ≠ [] := fun empty => wordAt.ne_nil (List.reverse_eq_nil_iff.1 empty)
  rw [tokens_wordAt wordAt, tokens_call (symbols.not_operator rfl) begun]
  simp [text, Position.afterBracket]

end Scan

end Calculator
