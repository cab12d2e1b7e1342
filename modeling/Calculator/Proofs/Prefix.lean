import Mathlib.Data.List.Induction
import Calculator.Proofs.Scan
import Calculator.Proofs.Stack

/-!
# Prefixes of a source

What the scan has emitted and kept after some characters depends on nothing
that follows. A token of a source is emitted at one of its characters or at
its end, and the unfinished word is the last stretch of what has been read.
A prefix whose tokens cannot be assembled decides the answer for every source
that begins with it.
-/

namespace Calculator

namespace Token

/-- The tokens emitted while the characters are read. -/
def emitted (isOperator : Char → Bool) (before : List Char) : List Token :=
  (Scan.initial.run isOperator before).1

end Token

namespace Scan

variable {isOperator : Char → Bool}

/-- The state of the scan after the characters. -/
def after (isOperator : Char → Bool) (before : List Char) : Scan :=
  (initial.run isOperator before).2

theorem run_concat (isOperator : Char → Bool) (scan : Scan) (before : List Char) (c : Char) :
    scan.run isOperator (before ++ [c]) =
      ((scan.run isOperator before).1 ++ ((scan.run isOperator before).2.read isOperator c).1,
        ((scan.run isOperator before).2.read isOperator c).2) := by
  rw [run_append]
  simp [run]

theorem after_concat (isOperator : Char → Bool) (before : List Char) (c : Char) :
    after isOperator (before ++ [c]) = ((after isOperator before).read isOperator c).2 := by
  rw [after, run_concat]
  rfl

theorem emitted_concat (isOperator : Char → Bool) (before : List Char) (c : Char) :
    Token.emitted isOperator (before ++ [c]) =
      Token.emitted isOperator before ++ ((after isOperator before).read isOperator c).1 := by
  rw [Token.emitted, run_concat]
  rfl

/-- The tokens of a source are those of its prefix and those that come after. -/
theorem ofSource_append (isOperator : Char → Bool) (before rest : List Char) :
    Token.ofSource isOperator (before ++ rest) =
      Token.emitted isOperator before ++ (after isOperator before).tokens isOperator rest :=
  tokens_append isOperator initial before rest

theorem ofSource_eq (isOperator : Char → Bool) (source : List Char) :
    Token.ofSource isOperator source =
      Token.emitted isOperator source ++ (after isOperator source).finish :=
  tokens_eq_run isOperator initial source

/-- Every token is emitted at some character, after those that were emitted before. -/
theorem exists_of_emitted_eq {before : List Char} {first second : List Token} {token : Token}
    (split : Token.emitted isOperator before = first ++ token :: second) :
    ∃ earlier c later now rest, before = earlier ++ c :: later ∧
      first = Token.emitted isOperator earlier ++ now ∧
      ((after isOperator earlier).read isOperator c).1 = now ++ token :: rest := by
  induction before using List.reverseRecOn generalizing second with
  | nil => simp [Token.emitted, run] at split
  | append_singleton before c ih =>
      rw [emitted_concat, List.append_eq_append_iff] at split
      rcases split with ⟨now, found, rest⟩ | ⟨later, found, rest⟩
      · exact ⟨before, c, [], now, second, rfl, found, rest⟩
      · cases later with
        | nil => exact ⟨before, c, [], [], second, rfl, by simpa using found.symm, rest.symm⟩
        | cons other later =>
            obtain ⟨rfl, _⟩ := List.cons.inj rest
            obtain ⟨earlier, d, tail, now, others, rfl, same, read⟩ := ih found
            exact ⟨earlier, d, tail ++ [c], now, others, by simp, same, read⟩

theorem exists_of_mem_emitted {token : Token} {before : List Char}
    (member : token ∈ Token.emitted isOperator before) :
    ∃ earlier c later, before = earlier ++ c :: later ∧
      token ∈ ((after isOperator earlier).read isOperator c).1 := by
  obtain ⟨first, second, split⟩ := List.append_of_mem member
  obtain ⟨earlier, c, later, now, rest, same, _, read⟩ := exists_of_emitted_eq split
  exact ⟨earlier, c, later, same, by simp [read]⟩

/-! ## The unfinished word -/

/-- The word that the scan has begun after the characters, and where it began. -/
structure Begun (isOperator : Char → Bool) (before earlier : List Char) (position : Position) :
    Prop where
  split : before = earlier ++ (after isOperator before).word.reverse
  emitted : Token.emitted isOperator earlier = Token.emitted isOperator before
  state : after isOperator earlier = ⟨position, []⟩
  forming : (after isOperator before).Forming isOperator position

/-- A state without a word has just begun one. -/
theorem Begun.fresh {before : List Char} {position : Position}
    (state : after isOperator before = ⟨position, []⟩) :
    Begun isOperator before before position := by
  refine ⟨?_, rfl, state, ?_⟩
  · simp [state]
  · rw [state]
    exact .inl ⟨rfl, rfl⟩

theorem exists_begun (symbols : Unreserved isOperator) (before : List Char) :
    ∃ earlier position, Begun isOperator before earlier position := by
  induction before using List.reverseRecOn with
  | nil => exact ⟨[], .start, .fresh rfl⟩
  | append_singleton before c ih =>
      obtain ⟨earlier, entry, begun⟩ := ih
      have next := after_concat isOperator before c
      rcases read_cases symbols (after isOperator before) c with ⟨operator, inside⟩ |
        ⟨operator, nested⟩ | ⟨_, rfl | rfl | rfl⟩ | ⟨notReserved, sign⟩
      · rw [read_operator operator inside, close_eq] at next
        exact ⟨_, _, .fresh next⟩
      · -- A misplaced sign leaves the scan where it is, and no word has begun there.
        rw [read_misplacedSign operator nested] at next
        rcases begun.forming with ⟨empty, _⟩ | ⟨inside, _⟩
        · refine ⟨_, .nested, .fresh ?_⟩
          rw [next, ← nested, ← empty]
        · rw [nested] at inside
          cases inside
      · rw [read_openBracket _ (symbols.not_operator rfl)] at next
        exact ⟨_, _, .fresh next⟩
      · rw [read_closeBracket _ (symbols.not_operator rfl), close_eq] at next
        exact ⟨_, _, .fresh next⟩
      · rw [read_separator _ (symbols.not_operator rfl), close_eq] at next
        exact ⟨_, _, .fresh next⟩
      · have same := emitted_concat isOperator before c
        rw [read_extend notReserved sign, extend] at next same
        refine ⟨earlier, entry, ?_, ?_, begun.state, ?_⟩
        · rw [next, List.reverse_cons, ← List.append_assoc, ← begun.split]
        · rw [begun.emitted, same, List.append_nil]
        · rw [next]
          exact begun.forming.extend notReserved sign

/-- The text of a word that is emitted now is the unfinished word. -/
theorem text_of_mem_finish {scan : Scan} {token : Token} (member : token ∈ scan.finish) :
    token = .word scan.text ∧ scan.word ≠ [] := by
  unfold finish at member
  split at member
  next => cases member
  next begun => exact ⟨List.mem_singleton.1 member, begun⟩

/-- What a character makes the scan emit besides the word before it. -/
inductive Emits (isOperator : Char → Bool) (scan : Scan) (c : Char) : Token → Prop where
  | word (begun : scan.word ≠ []) (ends : isOperator c = true ∨ c = ',' ∨ c = ')') :
      Emits isOperator scan c (.word scan.text)
  | call (begun : scan.word ≠ []) (opens : c = '(') : Emits isOperator scan c (.call scan.text)
  | operator (known : isOperator c = true) (inside : scan.position = .operand) :
      Emits isOperator scan c (.operator c)
  | openBracket (opens : c = '(') : Emits isOperator scan c .openBracket
  | separator (separates : c = ',') : Emits isOperator scan c .separator
  | closeBracket (closes : c = ')') : Emits isOperator scan c .closeBracket
  | misplacedSign (known : isOperator c = true) (nested : scan.position = .nested) :
      Emits isOperator scan c .misplacedSign

theorem emits_of_mem_read (symbols : Unreserved isOperator) {scan : Scan} {c : Char} {token : Token}
    (member : token ∈ (scan.read isOperator c).1) : scan.Emits isOperator c token := by
  have closed {other : Token} {position : Position}
      (ends : isOperator c = true ∨ c = ',' ∨ c = ')') (emits : scan.Emits isOperator c other)
      (member : token ∈ (scan.close other position).1) : scan.Emits isOperator c token := by
    rw [close_eq] at member
    rcases List.mem_append.1 member with word | last
    · obtain ⟨rfl, begun⟩ := text_of_mem_finish word
      exact .word begun ends
    · rw [List.mem_singleton.1 last]
      exact emits
  rcases read_cases symbols scan c with ⟨operator, inside⟩ | ⟨operator, nested⟩ |
    ⟨_, rfl | rfl | rfl⟩ | ⟨notReserved, sign⟩
  · rw [read_operator operator inside] at member
    exact closed (.inl operator) (.operator operator inside) member
  · rw [read_misplacedSign operator nested] at member
    rw [List.mem_singleton.1 member]
    exact .misplacedSign operator nested
  · rw [read_openBracket scan (symbols.not_operator rfl)] at member
    dsimp only at member
    split at member
    next => rw [List.mem_singleton.1 member]; exact .openBracket rfl
    next begun => rw [List.mem_singleton.1 member]; exact .call begun rfl
  · rw [read_closeBracket scan (symbols.not_operator rfl)] at member
    exact closed (.inr (.inr rfl)) (.closeBracket rfl) member
  · rw [read_separator scan (symbols.not_operator rfl)] at member
    exact closed (.inr (.inl rfl)) (.separator rfl) member
  · rw [read_extend notReserved sign] at member
    cases member

/-- The word of a scan that has begun one is formed as the scan forms words. -/
theorem Begun.wordAt {before earlier : List Char} {position : Position}
    (begun : Begun isOperator before earlier position)
    (word : (after isOperator before).word ≠ []) :
    WordAt isOperator position (after isOperator before).text.toList := by
  rcases begun.forming with ⟨empty, _⟩ | ⟨_, wordAt⟩
  · exact absurd empty word
  · rw [text, String.toList_ofList]
    exact wordAt

/-- Every word of a source is formed as the scan forms words. -/
theorem exists_wordAt_of_mem (symbols : Unreserved isOperator) {source : List Char} {text : String}
    (member : .word text ∈ Token.ofSource isOperator source ∨
      .call text ∈ Token.ofSource isOperator source) :
    ∃ position, WordAt isOperator position text.toList := by
  have formed (before : List Char) (word : (after isOperator before).word ≠ []) :
      ∃ position, WordAt isOperator position (after isOperator before).text.toList := by
    obtain ⟨earlier, position, begun⟩ := exists_begun symbols before
    exact ⟨position, begun.wordAt word⟩
  have read {token : Token} (word : token = .word text ∨ token = .call text)
      (member : token ∈ Token.emitted isOperator source) :
      ∃ position, WordAt isOperator position text.toList := by
    obtain ⟨before, c, later, _, emitted⟩ := exists_of_mem_emitted member
    cases emits_of_mem_read symbols emitted with
    | word begun _ =>
        rcases word with same | same
        · cases same; exact formed before begun
        · cases same
    | call begun _ =>
        rcases word with same | same
        · cases same
        · cases same; exact formed before begun
    | _ => rcases word with same | same <;> cases same
  rw [ofSource_eq] at member
  rcases member with member | member
  · rcases List.mem_append.1 member with emitted | last
    · exact read (.inl rfl) emitted
    · obtain ⟨same, begun⟩ := text_of_mem_finish last
      cases same
      exact formed source begun
  · rcases List.mem_append.1 member with emitted | last
    · exact read (.inr rfl) emitted
    · cases (text_of_mem_finish last).1

end Scan

/-! ## Prefixes that are assembled -/

namespace Registry

variable {registry : Registry}

/-- What is assembled after the characters, unless their tokens are refused. -/
def assembled (registry : Registry) (before : List Char) : Except ParseError Assembly :=
  Assembly.empty.acceptAll registry (Token.emitted registry.isOperator before)

/-- The compilation gets past the characters. -/
def ReadsPast (registry : Registry) (before : List Char) : Prop :=
  ∃ assembly, registry.assembled before = .ok assembly

theorem assembled_concat (registry : Registry) (before : List Char) (c : Char) :
    let read := (Scan.after registry.isOperator before).read registry.isOperator c
    registry.assembled (before ++ [c]) =
      (registry.assembled before).bind fun assembly => assembly.acceptAll registry read.1 := by
  rw [assembled, Scan.emitted_concat, Assembly.acceptAll_append]
  rfl

/-- A source goes on from what its first characters have come to. -/
theorem assemble_append (registry : Registry) (before rest : List Char) :
    assemble registry (before ++ rest) =
      (registry.assembled before).bind fun assembly =>
        (assembly.acceptAll registry
          ((Scan.after registry.isOperator before).tokens registry.isOperator rest)).bind
            Assembly.finish := by
  rw [assemble, Scan.ofSource_append, Assembly.acceptAll_append, assembled]
  cases Assembly.empty.acceptAll registry (Token.emitted registry.isOperator before) with
  | error error => rfl
  | ok assembly => rfl

/-- Tokens that are refused after a prefix are refused in every source that begins with it. -/
theorem compile_of_prefix {before : List Char} {error : ParseError}
    (refused : registry.assembled before = .error error) {expression : String}
    (begins : before <+: (Text.stripBlanks expression).toList) (maxDepth : Int) :
    compile registry expression maxDepth = .error error := by
  obtain ⟨rest, split⟩ := begins
  rw [compile, ← split, registry.assemble_append, refused]
  rfl

/-- A token that was emitted has been accepted, so none is a misplaced sign. -/
theorem ReadsPast.placed {before : List Char} (reached : registry.ReadsPast before) :
    .misplacedSign ∉ Token.emitted registry.isOperator before := by
  obtain ⟨assembly, accepted⟩ := reached
  intro member
  obtain ⟨_, _, accepts⟩ := Assembly.exists_accepts_of_mem accepted member
  cases accepts

end Registry

end Calculator
