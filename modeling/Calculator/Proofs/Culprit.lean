import Calculator.Proofs.Catalog
import Calculator.Proofs.Conservation
import Calculator.Proofs.Prefix

/-!
# The culprit of a parse error

An error about a word names the first word of the source that stands for
nothing, and its kind tells what the word was looked up as. An error about
the structure names nothing, or an operator or a function of the source that
lacks operands. What is refused at a character is refused whatever follows.
-/

namespace Calculator

variable {registry : Registry}

/-- A fold that fails does so at some element, after those that it has taken. -/
theorem exists_of_foldlM_eq_error {ε σ α : Type} {step : σ → α → Except ε σ} {list : List α}
    {state : σ} {error : ε} (failed : list.foldlM step state = .error error) :
    ∃ before x after reached, list = before ++ x :: after ∧
      before.foldlM step state = .ok reached ∧ step reached x = .error error := by
  induction list generalizing state with
  | nil => cases failed
  | cons x rest ih =>
      rw [List.foldlM_cons] at failed
      cases first : step state x with
      | error other =>
          rw [first] at failed
          cases failed
          exact ⟨[], x, rest, state, rfl, rfl, first⟩
      | ok next =>
          rw [first] at failed
          obtain ⟨before, y, after, reached, rfl, taken, refused⟩ := ih failed
          refine ⟨x :: before, y, after, reached, rfl, ?_, refused⟩
          rw [List.foldlM_cons, first]
          exact taken

namespace Assembly

/-! ## What is refused -/

/-- Why a token is refused. -/
inductive Refuses (registry : Registry) (assembly : Assembly) : Token → ParseError → Prop where
  | word {text : String} {error : ParseError} (unknown : registry.valueOf text = .error error) :
      Refuses registry assembly (.word text) error
  | call {text : String} {error : ParseError} (unknown : registry.callee text = .error error) :
      Refuses registry assembly (.call text) error
  | arguments {definition : Function} {separators : Nat} {rest : List Pending}
      {output : List Item}
      (unwound : assembly.unwind = ⟨.bracket (some definition) separators :: rest, output⟩) :
      Refuses registry assembly .closeBracket (.malformed definition.name)
  | malformed {token : Token} : Refuses registry assembly token (.malformed "")

theorem map_eq_error {α β ε : Type} {outcome : Except ε α} {f : α → β} {error : ε}
    (failed : outcome.map f = .error error) : outcome = .error error := by
  cases outcome with
  | error other => cases failed; rfl
  | ok value => cases failed

theorem refuses_of_accept {assembly : Assembly} {token : Token} {error : ParseError}
    (refused : accept registry assembly token = .error error) :
    Refuses registry assembly token error := by
  cases token with
  | word text =>
      rw [accept_word_eq] at refused
      exact .word (map_eq_error refused)
  | call text =>
      rw [accept_call_eq] at refused
      exact .call (map_eq_error refused)
  | operator symbol =>
      rw [accept] at refused
      split at refused
      next => cases refused
      next => cases refused; exact .malformed
  | openBracket => cases refused
  | separator =>
      change separate assembly = _ at refused
      unfold separate at refused
      split at refused
      next => cases refused
      next => cases refused; exact .malformed
  | closeBracket =>
      change closeBracket assembly = _ at refused
      unfold closeBracket at refused
      split at refused
      next unwound =>
        split at refused
        next => cases refused
        next => cases refused; exact .arguments unwound
      next =>
        split at refused
        next => cases refused
        next => cases refused; exact .malformed
      next => cases refused; exact .malformed
  | misplacedSign => cases refused; exact .malformed

theorem finish_eq_error {assembly : Assembly} {error : ParseError}
    (refused : assembly.finish = .error error) : error = .malformed "" := by
  unfold finish at refused
  split at refused
  next => cases refused
  next => cases refused; rfl

/-! ## The calls that are open -/

/-- Every bracket of a call on the stack was opened by that call. -/
def CallsFrom (registry : Registry) (read : List Token) (assembly : Assembly) : Prop :=
  ∀ definition separators, (some definition, separators) ∈ brackets assembly.pending →
    ∃ text, .call text ∈ read ∧ registry.callee text = .ok definition

theorem CallsFrom.accepts {read : List Token} {assembly next : Assembly} {token : Token}
    (calls : CallsFrom registry read assembly)
    (accepts : Accepts registry assembly token next) :
    CallsFrom registry (read ++ [token]) next := by
  have old {definition : Function} {separators : Nat}
      (member : (some definition, separators) ∈ brackets assembly.pending) :
      ∃ text, .call text ∈ read ++ [token] ∧ registry.callee text = .ok definition := by
    obtain ⟨text, inRead, known⟩ := calls definition separators member
    exact ⟨text, List.mem_append_left _ inRead, known⟩
  intro definition separators member
  cases accepts with
  | word known => exact old member
  | @call text opened known =>
      rcases List.mem_cons.1 member with new | later
      · cases new
        exact ⟨text, by simp, known⟩
      · exact old later
  | @operator symbol operator known =>
      have kept := brackets_release operator.precedence assembly.pending assembly.output
      rw [pushOperator, push, entryOf] at member
      split at member
      · rcases List.mem_cons.1 member with new | later
        · cases new
        · exact old (by rw [← kept]; exact later)
      · exact old (by rw [← kept]; exact member)
  | openBracket =>
      rcases List.mem_cons.1 member with new | later
      · cases new
      · exact old later
  | separator unwound =>
      have kept := brackets_unwind unwound
      rcases List.mem_cons.1 member with new | later
      · cases new
        exact old (by rw [← kept]; exact List.mem_cons_self ..)
      · exact old (by rw [← kept]; exact List.mem_cons_of_mem _ later)
  | closeBracket unwound closes =>
      have kept := brackets_unwind unwound
      exact old (by rw [← kept]; exact List.mem_cons_of_mem _ member)

theorem callsFrom_acceptAll {tokens : List Token} {assembly : Assembly}
    (accepted : empty.acceptAll registry tokens = .ok assembly) :
    CallsFrom registry tokens assembly := by
  refine acceptAll_induction (motive := CallsFrom registry) CallsFrom.accepts [] ?_ accepted
  intro definition separators member
  cases member

end Assembly

theorem Item.stack_eq_error {maxDepth : Int} {heights : List Nat} {item : Item} {error : ParseError}
    (refused : item.stack maxDepth heights = .error error) :
    error = .malformed "" ∨ (0 < item.arity ∧ error = .malformed item.text) := by
  unfold Item.stack at refused
  split at refused
  next few => cases refused; exact .inr ⟨by omega, rfl⟩
  next =>
    dsimp only at refused
    split at refused
    next => cases refused; exact .inl rfl
    next => cases refused

theorem checkOperands_eq_error {items : List Item} {maxDepth : Int} {error : ParseError}
    (refused : checkOperands items maxDepth = .error error) :
    error = .malformed "" ∨ ∃ item ∈ items, 0 < item.arity ∧ error = .malformed item.text := by
  unfold checkOperands at refused
  cases run : items.foldlM (Item.stack maxDepth) [] with
  | ok heights =>
      simp only [run, bind, Except.bind] at refused
      split at refused
      next => cases refused
      next => cases refused; exact .inl rfl
  | error other =>
      simp only [run, bind, Except.bind] at refused
      cases refused
      obtain ⟨before, item, after, heights, rfl, _, stops⟩ := exists_of_foldlM_eq_error run
      rcases Item.stack_eq_error stops with empty | ⟨takes, named⟩
      · exact .inl empty
      · exact .inr ⟨item, by simp, takes, named⟩

/-! ## The word that stands for nothing -/

/-- The kind of an error says what its word was looked up as. -/
structure Registry.Blames (registry : Registry) (word : String) (called : Prop)
    (kind : ErrorKind) : Prop where
  call : kind = .function ↔ called ∧ registry.functions.find? word = none
  numeral : kind = .number ↔
    ¬ called ∧ registry.isNumberWord word = true ∧ Registry.number? word = none
  functionName : kind = .functionVariable ↔
    ¬ called ∧ registry.isNumberWord word = false ∧ registry.bindings.find? word = none ∧
      registry.functions.contains word = true
  name : kind = .variable ↔
    ¬ called ∧ registry.isNumberWord word = false ∧ registry.bindings.find? word = none ∧
      registry.functions.contains word = false

theorem Registry.blames_of_callee {text : String} {error : ParseError} {called : Prop}
    (opens : called) (unknown : registry.callee text = .error error) :
    error.target = text ∧ error.kind ≠ .other ∧ registry.Blames text called error.kind := by
  unfold callee at unknown
  split at unknown
  next => cases unknown
  next missing =>
    cases unknown
    exact ⟨rfl, by simp, by simp [opens, missing], by simp [opens], by simp [opens],
      by simp [opens]⟩

theorem Registry.blames_of_valueOf {text : String} {error : ParseError} {called : Prop}
    (ends : ¬ called) (unknown : registry.valueOf text = .error error) :
    error.target = text ∧ error.kind ≠ .other ∧ registry.Blames text called error.kind := by
  unfold valueOf at unknown
  split at unknown
  next numeric =>
    split at unknown
    next => cases unknown
    next unread =>
      cases unknown
      exact ⟨rfl, by simp, by simp [ends], by simp [ends, numeric, unread], by simp [numeric],
        by simp [numeric]⟩
  next notNumeric =>
    split at unknown
    next => cases unknown
    next missing =>
      split at unknown
      next function =>
        cases unknown
        exact ⟨rfl, by simp, by simp [ends], by simp [notNumeric],
          by simp [ends, notNumeric, missing, function],
          by simp [function]⟩
      next noFunction =>
        cases unknown
        exact ⟨rfl, by simp, by simp [ends], by simp [notNumeric], by simp [noFunction],
          by simp [ends, notNumeric, missing, noFunction]⟩

/--
A word of a source as the scan reads it: where it begins, that it is not empty and goes on to a
character that ends it, and that everything before it is accepted.
-/
structure Registry.ReadsWord (registry : Registry) (source before : List Char) (word : String)
    (after : List Char) : Prop where
  split : source = before ++ word.toList ++ after
  accepted : registry.ReadsPast before
  outside : (Scan.after registry.isOperator before).word = []
  formed : WordAt registry.isOperator (Scan.after registry.isOperator before).position word.toList
  ends : after.head? = some '(' ∨ Ends registry.isOperator after
  emitted : ∃ rest, Token.ofSource registry.isOperator source =
    Token.emitted registry.isOperator before ++
      (if after.head? = some '(' then .call word else .word word) :: rest

namespace Scan

variable {isOperator : Char → Bool}

theorem finish_eq {scan : Scan} {now rest : List Token} {token : Token}
    (finished : scan.finish = now ++ token :: rest) :
    now = [] ∧ token = .word scan.text ∧ scan.word ≠ [] := by
  have member : token ∈ scan.finish := by simp [finished]
  obtain ⟨same, begun⟩ := text_of_mem_finish member
  refine ⟨?_, same, begun⟩
  rw [finish, if_neg begun] at finished
  cases now with
  | nil => rfl
  | cons first more => simp at finished

/-- A word is the first token that a character makes the scan emit. -/
theorem eq_nil_of_read_eq (symbols : Unreserved isOperator) {scan : Scan} {c : Char} {text : String}
    {now rest : List Token} {token : Token} (word : token = .word text ∨ token = .call text)
    (read : (scan.read isOperator c).1 = now ++ token :: rest) : now = [] := by
  have closed {other : Token} (noWord : other ≠ token)
      (read : scan.finish ++ [other] = now ++ token :: rest) : now = [] := by
    cases now with
    | nil => rfl
    | cons first more =>
        unfold finish at read
        split at read
        next => simp at read
        next =>
          obtain ⟨_, tail⟩ := List.cons.inj read
          cases more with
          | nil => exact absurd (List.cons.inj tail).1 noWord
          | cons second more => simp at tail
  have single {other : Token} (read : [other] = now ++ token :: rest) : now = [] := by
    cases now with
    | nil => rfl
    | cons first more => simp at read
  rcases read_cases symbols scan c with ⟨operator, inside⟩ | ⟨operator, nested⟩ |
    ⟨_, rfl | rfl | rfl⟩ | ⟨notReserved, sign⟩
  · rw [read_operator operator inside, close_eq] at read
    exact closed (by rcases word with rfl | rfl <;> simp) read
  · rw [read_misplacedSign operator nested] at read
    exact single read
  · rw [read_openBracket scan (symbols.not_operator rfl)] at read
    dsimp only at read
    split at read
    next => exact single read
    next => exact single read
  · rw [read_closeBracket scan (symbols.not_operator rfl), close_eq] at read
    exact closed (by rcases word with rfl | rfl <;> simp) read
  · rw [read_separator scan (symbols.not_operator rfl), close_eq] at read
    exact closed (by rcases word with rfl | rfl <;> simp) read
  · rw [read_extend notReserved sign] at read
    simp [extend] at read

/-- The scan has begun a word after the characters, and what comes next ends it as this token. -/
structure EndsWord (isOperator : Char → Bool) (earlier next : List Char) (token : Token)
    (word : String) : Prop where
  begun : (after isOperator earlier).word ≠ []
  text : (after isOperator earlier).text = word
  ends : next.head? = some '(' ∨ Ends isOperator next
  token : token = if next.head? = some '(' then .call word else .word word

theorem endsWord_of_finish {source : List Char} {now rest : List Token} {token : Token}
    {text : String} (word : token = .word text ∨ token = .call text)
    (finished : (after isOperator source).finish = now ++ token :: rest) :
    now = [] ∧ EndsWord isOperator source [] token text := by
  obtain ⟨nothing, same, begun⟩ := finish_eq finished
  rcases word with rfl | rfl
  · exact ⟨nothing, begun, (Token.word.inj same).symm, .inr .nil, rfl⟩
  · cases same

theorem endsWord_of_emits (symbols : Unreserved isOperator) {earlier : List Char} {c : Char}
    {token : Token} {text : String} (word : token = .word text ∨ token = .call text)
    (emits : (after isOperator earlier).Emits isOperator c token) (rest : List Char) :
    EndsWord isOperator earlier (c :: rest) token text := by
  rcases word with rfl | rfl
  · cases emits with
    | word begun ends =>
        have notOpening : c ≠ '(' := by
          rintro rfl
          rcases ends with operator | comma | closing
          · rw [symbols.not_operator rfl] at operator
            cases operator
          · cases comma
          · cases closing
        refine ⟨begun, rfl, .inr ?_, by simp [notOpening]⟩
        rcases ends with operator | rfl | rfl
        · exact .operator operator rest
        · exact .separator rest
        · exact .closeBracket rest
  · cases emits with
    | call begun opens =>
        subst opens
        exact ⟨begun, rfl, .inl rfl, rfl⟩

/-- A word token is emitted where its word ends, at a character or at the end of the source. -/
theorem exists_endsWord (symbols : Unreserved isOperator) {source : List Char}
    {first rest : List Token} {token : Token} {text : String}
    (word : token = .word text ∨ token = .call text)
    (split : Token.ofSource isOperator source = first ++ token :: rest) :
    ∃ earlier next, source = earlier ++ next ∧ Token.emitted isOperator earlier = first ∧
      EndsWord isOperator earlier next token text := by
  have last {now : List Token} (emitted : Token.emitted isOperator source ++ now = first)
      (finished : (after isOperator source).finish = now ++ token :: rest) :
      ∃ earlier next, source = earlier ++ next ∧ Token.emitted isOperator earlier = first ∧
        EndsWord isOperator earlier next token text := by
    obtain ⟨rfl, ends⟩ := endsWord_of_finish word finished
    rw [List.append_nil] at emitted
    exact ⟨source, [], (List.append_nil source).symm, emitted, ends⟩
  rw [ofSource_eq, List.append_eq_append_iff] at split
  rcases split with ⟨now, emitted, finished⟩ | ⟨later, emitted, finished⟩
  · exact last emitted.symm finished
  · cases later with
    | nil =>
        have all : Token.emitted isOperator source ++ [] = first := by
          rw [List.append_nil, emitted, List.append_nil]
        exact last all finished.symm
    | cons other later =>
        obtain ⟨rfl, _⟩ := List.cons.inj finished
        obtain ⟨earlier, c, next, now, others, same, before, read⟩ := exists_of_emitted_eq emitted
        have nothing := eq_nil_of_read_eq symbols word read
        subst nothing
        rw [List.append_nil] at before
        have emits := emits_of_mem_read symbols (by rw [read]; exact List.mem_cons_self ..)
        exact ⟨earlier, c :: next, same, before.symm, endsWord_of_emits symbols word emits next⟩

end Scan

/-- The place of a word token in the source. -/
theorem Registry.exists_readsWord (symbols : Unreserved registry.isOperator) {source : List Char}
    {first rest : List Token} {token : Token} {text : String} {assembly : Assembly}
    (word : token = .word text ∨ token = .call text)
    (split : Token.ofSource registry.isOperator source = first ++ token :: rest)
    (reached : Assembly.empty.acceptAll registry first = .ok assembly) :
    ∃ before after, registry.ReadsWord source before text after ∧
      (token = .call text ↔ after.head? = some '(') := by
  obtain ⟨earlier, after, source_eq, emitted, ended⟩ := Scan.exists_endsWord symbols word split
  -- The word was begun before the characters that come next.
  obtain ⟨before, position, start⟩ := Scan.exists_begun symbols earlier
  have chars : text.toList = (Scan.after registry.isOperator earlier).word.reverse := by
    rw [← ended.text, Scan.text, String.toList_ofList]
  refine ⟨before, after, ⟨?_, ?_, ?_, ?_, ended.ends, rest, ?_⟩, ?_⟩
  · rw [chars, ← start.split, source_eq]
  · exact ⟨assembly, by rw [assembled, start.emitted, emitted, reached]⟩
  · rw [start.state]
  · rw [start.state, ← ended.text]
    exact start.wordAt ended.begun
  · rw [split, start.emitted, emitted, ended.token]
  · rw [ended.token]
    split <;> simp [*]

/-! ## The item that lacks operands -/

/-- The text is the symbol of an operator or the name of a function that the source uses. -/
inductive Registry.NamesItem (registry : Registry) (source : List Char) : String → Prop where
  | operator {definition : Operator}
      (found : registry.operators.find? definition.symbol = some definition)
      (read : .operator definition.symbol ∈ Token.ofSource registry.isOperator source)
      (occurs : definition.symbol ∈ source) :
      NamesItem registry source definition.symbol.toString
  | function {definition : Function}
      (found : registry.functions.find? definition.name = some definition)
      (read : .call definition.name ∈ Token.ofSource registry.isOperator source)
      (occurs : ∃ before after, source = before ++ definition.name.toList ++ '(' :: after) :
      NamesItem registry source definition.name

namespace Scan

variable {isOperator : Char → Bool}

theorem mem_emitted_of_ofSource {source : List Char} {token : Token}
    (noWord : ∀ text, token ≠ .word text) (member : token ∈ Token.ofSource isOperator source) :
    token ∈ Token.emitted isOperator source := by
  rw [ofSource_eq] at member
  rcases List.mem_append.1 member with emitted | last
  · exact emitted
  · exact absurd (text_of_mem_finish last).1 (noWord _)

theorem mem_source_of_operator (symbols : Unreserved isOperator) {source : List Char}
    {symbol : Char} (member : .operator symbol ∈ Token.ofSource isOperator source) : symbol ∈ source := by
  obtain ⟨earlier, c, later, rfl, read⟩ :=
    exists_of_mem_emitted (mem_emitted_of_ofSource (by simp) member)
  cases emits_of_mem_read symbols read with
  | operator known inside => simp

theorem source_eq_of_call (symbols : Unreserved isOperator) {source : List Char} {text : String}
    (member : .call text ∈ Token.ofSource isOperator source) :
    ∃ before after, source = before ++ text.toList ++ '(' :: after := by
  obtain ⟨earlier, c, later, rfl, read⟩ :=
    exists_of_mem_emitted (mem_emitted_of_ofSource (by simp) member)
  cases emits_of_mem_read symbols read with
  | call begun opens =>
      obtain ⟨before, position, start⟩ := exists_begun symbols earlier
      refine ⟨before, later, ?_⟩
      rw [text, String.toList_ofList, ← start.split, opens]

end Scan

theorem Registry.Built.namesItem_of_call (built : registry.Built) {source : List Char}
    {text : String} {definition : Function}
    (read : .call text ∈ Token.ofSource registry.isOperator source)
    (known : registry.callee text = .ok definition) :
    registry.NamesItem source definition.name := by
  have found := find?_of_callee known
  have name := built.name_eq found
  rw [← name] at found read
  exact .function found read (Scan.source_eq_of_call built.unreserved read)

/-- An item that takes operands is an operator or a function of the source. -/
theorem Registry.Built.namesItem_of_mem (built : registry.Built) {source : List Char}
    {items : List Item} (assembled : assemble registry source = .ok items) {item : Item}
    (member : item ∈ items) (takes : 0 < item.arity) : registry.NamesItem source item.text := by
  obtain ⟨token, read, stands⟩ :=
    List.mem_filterMap.1 ((items_perm_of_assemble assembled).mem_iff.1 member)
  cases token with
  | word text =>
      obtain ⟨value, _, rfl⟩ := Option.map_eq_some_iff.1 stands
      exact absurd takes (Nat.lt_irrefl 0)
  | call text =>
      obtain ⟨definition, known, rfl⟩ := Option.map_eq_some_iff.1 stands
      cases callee : registry.callee text with
      | error error =>
          rw [callee] at known
          cases known
      | ok function =>
          rw [callee] at known
          cases known
          exact built.namesItem_of_call read callee
  | operator symbol =>
      obtain ⟨definition, found, entry⟩ := Option.bind_eq_some_iff.1 stands
      have symbol_eq := built.symbol_eq found
      have same : item = .operator definition := by
        unfold Assembly.entryOf at entry
        split at entry
        next => cases entry
        next => exact (Option.some.inj entry).symm
      rw [← symbol_eq] at found read
      rw [same]
      exact .operator found read (Scan.mem_source_of_operator built.unreserved read)
  | openBracket => cases stands
  | separator => cases stands
  | closeBracket => cases stands
  | misplacedSign => cases stands

/-! ## Every error -/

/-- What a parse error is about. -/
inductive Registry.Culprit (registry : Registry) (source : List Char) : ParseError → Prop where
  | word {before after : List Char} {error : ParseError}
      (reads : registry.ReadsWord source before error.target after)
      (blames : registry.Blames error.target (after.head? = some '(') error.kind)
      (named : error.kind ≠ .other) : Culprit registry source error
  | item {text : String} (names : registry.NamesItem source text) :
      Culprit registry source (.malformed text)
  | malformed : Culprit registry source (.malformed "")

theorem Registry.Built.culprit_of_refused (built : registry.Built) {source : List Char}
    {error : ParseError}
    (refused : Assembly.empty.acceptAll registry (Token.ofSource registry.isOperator source) =
      .error error) : registry.Culprit source error := by
  obtain ⟨first, token, rest, assembly, split, reached, stops⟩ := exists_of_foldlM_eq_error refused
  cases Assembly.refuses_of_accept stops with
  | @word text _ unknown =>
      obtain ⟨before, after, reads, called⟩ :=
        exists_readsWord built.unreserved (.inl rfl) split reached
      have ends : ¬ after.head? = some '(' := fun opens => by cases called.2 opens
      obtain ⟨rfl, named, blames⟩ := blames_of_valueOf ends unknown
      exact .word reads blames named
  | @call text _ unknown =>
      obtain ⟨before, after, reads, called⟩ :=
        exists_readsWord built.unreserved (.inr rfl) split reached
      obtain ⟨rfl, named, blames⟩ := blames_of_callee (called.1 rfl) unknown
      exact .word reads blames named
  | @arguments definition separators pending output unwound =>
      have open_ := Assembly.brackets_unwind unwound
      obtain ⟨text, inFirst, known⟩ := Assembly.callsFrom_acceptAll reached definition separators
        (by rw [← open_]; exact List.mem_cons_self ..)
      exact .item (built.namesItem_of_call (by simp [split, inFirst]) known)
  | malformed => exact .malformed

theorem Registry.Built.culprit (built : registry.Built) {expression : String} {maxDepth : Int}
    {error : ParseError} (failed : compile registry expression maxDepth = .error error) :
    registry.Culprit (Text.stripBlanks expression).toList error := by
  rw [compile] at failed
  cases tokens : Assembly.empty.acceptAll registry
      (Token.ofSource registry.isOperator (Text.stripBlanks expression).toList) with
  | error other =>
      rw [assemble, tokens] at failed
      cases failed
      exact built.culprit_of_refused tokens
  | ok assembly =>
      cases finished : assembly.finish with
      | error other =>
          rw [assemble, tokens] at failed
          simp only [bind, Except.bind, finished] at failed
          cases failed
          rw [Assembly.finish_eq_error finished]
          exact .malformed
      | ok items =>
          have assembled : assemble registry (Text.stripBlanks expression).toList = .ok items := by
            rw [assemble, tokens]
            exact finished
          cases checked : checkOperands items maxDepth with
          | ok _ => simp [assembled, checked, bind, Except.bind, pure, Except.pure] at failed
          | error other =>
              simp only [assembled, checked, bind, Except.bind] at failed
              cases failed
              rcases checkOperands_eq_error checked with rfl | ⟨item, member, takes, rfl⟩
              · exact .malformed
              · exact .item (built.namesItem_of_mem assembled member takes)

/--
A parse error that is about a word names the first word that stands for nothing: the words before
it are accepted, and the kind tells why it is not. One that is about the structure names nothing,
or an operator or a function of the source. An error that arises at a character is the answer for
every source that goes like this one up to that character.
-/
theorem Registry.Built.culprit_of_compile (built : registry.Built) {expression : String}
    {maxDepth : Int} {error : ParseError}
    (failed : compile registry expression maxDepth = .error error) :
    let source := (Text.stripBlanks expression).toList
    (error.kind ≠ .other → ∃ before after,
      registry.ReadsWord source before error.target after ∧
        registry.Blames error.target (after.head? = some '(') error.kind) ∧
    (error.kind = .other → error.target ≠ "" → registry.NamesItem source error.target) ∧
    (∀ before c after, source = before ++ c :: after → registry.ReadsPast before →
      ¬ registry.ReadsPast (before ++ [c]) →
        ∀ (other : String) (depth : Int), before ++ [c] <+: (Text.stripBlanks other).toList →
          compile registry other depth = .error error) := by
  refine ⟨?_, ?_, ?_⟩
  · intro named
    cases built.culprit failed with
    | word reads blames _ => exact ⟨_, _, reads, blames⟩
    | item names => exact absurd rfl named
    | malformed => exact absurd rfl named
  · intro other some
    cases built.culprit failed with
    | word reads blames named => exact absurd other named
    | item names => exact names
    | malformed => exact absurd rfl some
  · intro before c after split _ stops other depth begins
    cases refused : registry.assembled (before ++ [c]) with
    | ok assembly => exact absurd ⟨assembly, refused⟩ stops
    | error first =>
        have here : before ++ [c] <+: (Text.stripBlanks expression).toList :=
          ⟨after, by simp [split]⟩
        have answer := compile_of_prefix refused here maxDepth
        cases failed.symm.trans answer
        exact compile_of_prefix refused begins depth

/-- The unknown name is refused at the character after it, before the bracket is looked at. -/
theorem Registry.Built.culprit_of_compile_catalog :
    compile Catalog.registry "2 + foo * )" defaultMaxDepth = .error ⟨.variable, "foo"⟩ ∧
      (∃ before after,
        Catalog.registry.ReadsWord (Text.stripBlanks "2 + foo * )").toList before "foo" after ∧
          Catalog.registry.Blames "foo" (after.head? = some '(') .variable) ∧
      ∀ (other : String) (depth : Int),
        ['2', '+', 'f', 'o', 'o', '*'] <+: (Text.stripBlanks other).toList →
          compile Catalog.registry other depth = .error ⟨.variable, "foo"⟩ := by
  have failed : compile Catalog.registry "2 + foo * )" defaultMaxDepth =
      .error ⟨.variable, "foo"⟩ := rfl
  obtain ⟨word, _, early⟩ := (Catalog.built .machine).culprit_of_compile failed
  refine ⟨failed, word (by decide), ?_⟩
  refine early ['2', '+', 'f', 'o', 'o'] '*' [')'] rfl ⟨_, rfl⟩ ?_
  rintro ⟨assembly, accepted⟩
  have refused : Catalog.registry.assembled ['2', '+', 'f', 'o', 'o', '*'] =
      .error ⟨.variable, "foo"⟩ := rfl
  cases refused.symm.trans accepted

end Calculator
