import Calculator.Proofs.Chain
import Calculator.Proofs.Postorder
import Calculator.Proofs.Stack

/-!
# Phrases

The token sequences that an assembly accepts, with what they leave behind.
Nothing is asked of the operands: any number of them may stand in a row, also
none, and a function takes what stands between its closing bracket and the next
operator along with its arguments. An assembly accepts a sequence exactly
when it is a chain of such rows, and lists the items of its forest.
-/

namespace Calculator

/-- No operator of the registry is kept as a bracket. -/
def Registry.Ranked (registry : Registry) : Prop :=
  ∀ {symbol definition}, registry.operators.find? symbol = some definition →
    definition.precedence ≠ .openBracket

/-- An operator over all trees on both sides of it. -/
def Tree.joinForests (operator : Operator) (left right : List Tree) : List Tree :=
  [.node (.operator operator) (left ++ right)]

/-- What a sequence of tokens is, with its trees. -/
inductive Part where
  | operands (forest : List Tree)
  | chain (chain : Chain (List Tree))
  | arguments (count : Nat) (forest : List Tree)

inductive Phrase (registry : Registry) : Part → List Token → Prop where
  | empty : Phrase registry (.operands []) []
  | word {text : String} {value : Float} {forest : List Tree} {rest : List Token}
      (known : registry.valueOf text = .ok value) (later : Phrase registry (.operands forest) rest) :
      Phrase registry (.operands (.node (.literal value) [] :: forest)) (.word text :: rest)
  | bracket {chain : Chain (List Tree)} {forest : List Tree} {inner rest : List Token}
      (inside : Phrase registry (.chain chain) inner)
      (later : Phrase registry (.operands forest) rest) :
      Phrase registry (.operands (chain.grouped Tree.joinForests ++ forest))
        (.openBracket :: (inner ++ .closeBracket :: rest))
  | call {text : String} {definition : Function} {arguments forest : List Tree}
      {inner rest : List Token} (known : registry.callee text = .ok definition)
      (inside : Phrase registry (.arguments definition.arity arguments) inner)
      (later : Phrase registry (.operands forest) rest) :
      Phrase registry (.operands [.node (.function definition) (arguments ++ forest)])
        (.call text :: (inner ++ .closeBracket :: rest))
  | single {forest : List Tree} {tokens : List Token}
      (operands : Phrase registry (.operands forest) tokens) :
      Phrase registry (.chain (.single forest)) tokens
  | operator {chain : Chain (List Tree)} {symbol : Char} {definition : Operator}
      {forest : List Tree} {before after : List Token}
      (left : Phrase registry (.chain chain) before)
      (known : registry.operators.find? symbol = some definition)
      (right : Phrase registry (.operands forest) after) :
      Phrase registry (.chain (chain.extend definition forest))
        (before ++ .operator symbol :: after)
  | argument {chain : Chain (List Tree)} {tokens : List Token}
      (only : Phrase registry (.chain chain) tokens) :
      Phrase registry (.arguments 1 (chain.grouped Tree.joinForests)) tokens
  | separator {count : Nat} {chain : Chain (List Tree)} {forest : List Tree}
      {before after : List Token} (left : Phrase registry (.arguments count forest) before)
      (right : Phrase registry (.chain chain) after) :
      Phrase registry (.arguments (count + 1) (forest ++ chain.grouped Tree.joinForests))
        (before ++ .separator :: after)

/-- All operators of a chain are ranked when those of the registry are. -/
theorem Phrase.ranked {registry : Registry} (ranked : registry.Ranked) {chain : Chain (List Tree)}
    {tokens : List Token} (phrase : Phrase registry (.chain chain) tokens) :
    ∀ operator ∈ chain.operators, operator.precedence ≠ .openBracket := by
  generalize same : Part.chain chain = part at phrase
  induction phrase generalizing chain with
  | single _ => cases same; simp [Chain.operators, Chain.single]
  | operator _ known _ ih =>
      cases same
      intro operator member
      rw [Chain.operators_extend] at member
      rcases List.mem_append.1 member with earlier | last
      · exact ih rfl operator earlier
      · rw [List.mem_singleton.1 last]
        exact ranked known
  | empty => cases same
  | word _ _ => cases same
  | bracket _ _ => cases same
  | call _ _ _ => cases same
  | argument _ => cases same
  | separator _ _ => cases same

namespace Assembly

variable {registry : Registry}

/-! ## Accepting a phrase -/

theorem acceptAll_cons {token : Token} {assembly next : Assembly}
    (accepted : accept registry assembly token = .ok next) (rest : List Token) :
    acceptAll registry assembly (token :: rest) = acceptAll registry next rest := by
  rw [acceptAll, List.foldlM_cons, accepted]
  rfl

theorem acceptAll_append_of_ok {first : List Token} {assembly next : Assembly}
    (accepted : acceptAll registry assembly first = .ok next) (second : List Token) :
    acceptAll registry assembly (first ++ second) = acceptAll registry next second := by
  rw [acceptAll_append, accepted]
  rfl

theorem accept_word {text : String} {value : Float} (known : registry.valueOf text = .ok value)
    (assembly : Assembly) :
    accept registry assembly (.word text) = .ok (assembly.emit (.literal value)) := by
  rw [accept_word_eq, known]
  rfl

theorem accept_call {text : String} {definition : Function}
    (known : registry.callee text = .ok definition) (assembly : Assembly) :
    accept registry assembly (.call text) = .ok (assembly.openCall definition) := by
  rw [accept_call_eq, known]
  rfl

theorem accept_operator {symbol : Char} {definition : Operator}
    (known : registry.operators.find? symbol = some definition) (assembly : Assembly) :
    accept registry assembly (.operator symbol) = .ok (assembly.pushOperator definition) := by
  rw [accept, known]

theorem accept_separator {assembly : Assembly} {call : Option Function} {separators : Nat}
    {pending : List Pending} {output : List Item}
    (unwound : assembly.unwind = ⟨.bracket call separators :: pending, output⟩) :
    accept registry assembly .separator =
      .ok ⟨.bracket call (separators + 1) :: pending, output⟩ := by
  rw [accept, separate, unwound]

theorem accept_closeBracket {assembly : Assembly} {call : Option Function} {separators : Nat}
    {pending : List Pending} {output : List Item}
    (unwound : assembly.unwind = ⟨.bracket call separators :: pending, output⟩)
    (closes : Closes call separators) :
    accept registry assembly .closeBracket = .ok ⟨pending, output⟩ := by
  rw [accept, closeBracket, unwound]
  cases call with
  | none => exact if_pos closes
  | some definition => exact if_pos closes

/--
The tokens are accepted on every stack that none of their operators releases. What they leave there
is released, by any bound that these operators do not stop, as the items of the forest.
-/
def Settles (registry : Registry) (tokens : List Token) (operators : List Operator)
    (forest : List Tree) : Prop :=
  ∀ pending output, (∀ operator ∈ operators, Stops operator.precedence pending) →
    ∃ next, acceptAll registry ⟨pending, output⟩ tokens = .ok next ∧
      ∀ bound : Precedence, (∀ operator ∈ operators, bound.rank ≤ operator.precedence.rank) →
        release bound next.pending next.output =
          release bound pending ((Tree.itemsOf forest).reverse ++ output)

theorem stops_bracket (bound : Precedence) (call : Option Function) (separators : Nat)
    (pending : List Pending) : Stops bound (.bracket call separators :: pending) := by
  intro entry top
  cases top
  exact id

/-- Above a bracket everything is released when the bracket is reached. -/
theorem Settles.above_bracket {tokens : List Token} {operators : List Operator}
    {forest : List Tree} (settles : Settles registry tokens operators forest)
    (call : Option Function) (separators : Nat) (pending : List Pending) (output : List Item) :
    ∃ next, acceptAll registry ⟨.bracket call separators :: pending, output⟩ tokens = .ok next ∧
      next.unwind =
        ⟨.bracket call separators :: pending, (Tree.itemsOf forest).reverse ++ output⟩ := by
  obtain ⟨next, run, released⟩ := settles (.bracket call separators :: pending) output
    fun operator _ => stops_bracket _ _ _ _
  refine ⟨next, run, ?_⟩
  rw [unwind, released .openBracket fun operator _ => Nat.zero_le _]
  exact release_of_stops _ (stops_bracket _ _ _ _)

/-- An operator between two parts that bind at least as tightly, and on the right more tightly. -/
theorem Settles.operator {before after : List Token} {first second : List Operator}
    {left right : List Tree} {symbol : Char} {definition : Operator}
    (settlesLeft : Settles registry before first left)
    (known : registry.operators.find? symbol = some definition)
    (ranked : definition.precedence ≠ .openBracket)
    (settlesRight : Settles registry after second right)
    (atLeast : ∀ earlier ∈ first, definition.precedence.rank ≤ earlier.precedence.rank)
    (above : ∀ later ∈ second, definition.precedence.rank < later.precedence.rank) :
    Settles registry (before ++ .operator symbol :: after) (first ++ definition :: second)
      (Tree.joinForests definition left right) := by
  intro pending output stops
  obtain ⟨middle, runLeft, releasedLeft⟩ := settlesLeft pending output fun earlier member =>
    stops earlier (List.mem_append_left _ member)
  have here : Stops definition.precedence pending :=
    stops definition (List.mem_append_right _ (List.mem_cons_self ..))
  have pushed : middle.pushOperator definition =
      ⟨.operator definition :: pending, (Tree.itemsOf left).reverse ++ output⟩ := by
    rw [pushOperator, releasedLeft definition.precedence atLeast, release_of_stops _ here,
      entryOf, if_neg ranked]
    rfl
  have shields : ∀ later ∈ second, Stops later.precedence (.operator definition :: pending) := by
    intro later member entry top
    cases top
    exact Nat.not_le.2 (above later member)
  obtain ⟨next, runRight, releasedRight⟩ := settlesRight (.operator definition :: pending)
    ((Tree.itemsOf left).reverse ++ output) shields
  refine ⟨next, ?_, ?_⟩
  · rw [acceptAll_append_of_ok runLeft, acceptAll_cons (accept_operator known middle), pushed]
    exact runRight
  · intro bound below
    have yields : (Pending.operator definition).Yields bound :=
      below definition (List.mem_append_right _ (List.mem_cons_self ..))
    rw [releasedRight bound fun later member =>
      below later (List.mem_append_right _ (List.mem_cons_of_mem _ member)),
      release_of_yields yields]
    simp [Tree.joinForests, Tree.itemsOf, Tree.items, Tree.itemsOf_append, Pending.item?]

/-- A chain taken apart at the operators that are applied last. -/
inductive Grouping (registry : Registry) : Chain (List Tree) → List Token → Prop where
  | operands {forest : List Tree} {tokens : List Token}
      (settles : Settles registry tokens [] forest) : Grouping registry (.single forest) tokens
  | operator {left right : Chain (List Tree)} {before after : List Token} {symbol : Char}
      {definition : Operator} (first : Grouping registry left before)
      (known : registry.operators.find? symbol = some definition)
      (second : Grouping registry right after)
      (atLeast : ∀ earlier ∈ left.operators,
        definition.precedence.rank ≤ earlier.precedence.rank)
      (above : ∀ later ∈ right.operators,
        definition.precedence.rank < later.precedence.rank) :
      Grouping registry (left.join definition right) (before ++ .operator symbol :: after)

theorem Grouping.settles (ranked : registry.Ranked) {chain : Chain (List Tree)}
    {tokens : List Token} (grouping : Grouping registry chain tokens) :
    Settles registry tokens chain.operators (chain.grouped Tree.joinForests) := by
  induction grouping with
  | operands settles => exact settles
  | @operator left right before after symbol definition _ known _ atLeast above ihLeft ihRight =>
      rw [Chain.operators_join, Chain.grouped_join _ (ranked known) atLeast above]
      exact ihLeft.operator known (ranked known) ihRight atLeast above

/-- One more operator goes below the last operators that bind more loosely, and above the others. -/
theorem Grouping.extend {chain : Chain (List Tree)} {before after : List Token} {symbol : Char}
    {definition : Operator} {forest : List Tree} (grouping : Grouping registry chain before)
    (known : registry.operators.find? symbol = some definition)
    (settles : Settles registry after [] forest) :
    Grouping registry (chain.extend definition forest) (before ++ .operator symbol :: after) := by
  induction grouping with
  | operands first =>
      exact .operator (.operands first) known (.operands settles) (by simp [Chain.operators,
        Chain.single]) (by simp [Chain.operators, Chain.single])
  | @operator left right start middle earlierSymbol earlier first earlierKnown second atLeast above
      ihLeft ihRight =>
      by_cases looser : definition.precedence.rank ≤ earlier.precedence.rank
      · refine .operator (.operator first earlierKnown second atLeast above) known
          (.operands settles) ?_ (by simp [Chain.operators, Chain.single])
        intro other member
        rw [Chain.operators_join] at member
        rcases List.mem_append.1 member with inLeft | rest
        · exact Nat.le_trans looser (atLeast other inLeft)
        · rcases List.mem_cons.1 rest with rfl | inRight
          · exact looser
          · exact Nat.le_trans looser (Nat.le_of_lt (above other inRight))
      · rw [← Chain.join_extend, List.append_assoc, List.cons_append]
        refine .operator first earlierKnown ihRight atLeast ?_
        intro other member
        rw [Chain.operators_extend] at member
        rcases List.mem_append.1 member with inRight | last
        · exact above other inRight
        · rw [List.mem_singleton.1 last]
          exact Nat.lt_of_not_le looser

/-- What an assembly makes of the tokens of a part. -/
def Assembles (registry : Registry) : Part → List Token → Prop
  | .operands forest, tokens => Settles registry tokens [] forest
  | .chain chain, tokens => Grouping registry chain tokens
  | .arguments count forest, tokens => ∀ call separators pending output,
      ∃ next last, acceptAll registry ⟨.bracket call separators :: pending, output⟩ tokens =
          .ok next ∧ last + 1 = separators + count ∧
        next.unwind = ⟨.bracket call last :: pending, (Tree.itemsOf forest).reverse ++ output⟩

theorem Settles.empty : Settles registry [] [] [] :=
  fun pending output _ => ⟨⟨pending, output⟩, rfl, fun _ _ => rfl⟩

theorem Settles.word {text : String} {value : Float} {rest : List Token} {forest : List Tree}
    (known : registry.valueOf text = .ok value) (later : Settles registry rest [] forest) :
    Settles registry (.word text :: rest) [] (.node (.literal value) [] :: forest) := by
  intro pending output _
  obtain ⟨next, run, released⟩ := later pending (.literal value :: output) (by simp)
  refine ⟨next, ?_, ?_⟩
  · rw [acceptAll_cons (accept_word known _)]
    exact run
  · intro bound below
    rw [released bound below]
    simp [Tree.itemsOf, Tree.items]

theorem Settles.bracket {inner rest : List Token} {operators : List Operator}
    {trees forest : List Tree} (inside : Settles registry inner operators trees)
    (later : Settles registry rest [] forest) :
    Settles registry (.openBracket :: (inner ++ .closeBracket :: rest)) [] (trees ++ forest) := by
  intro pending output _
  obtain ⟨middle, runInside, unwound⟩ := inside.above_bracket none 0 pending output
  obtain ⟨next, runLater, released⟩ := later pending _ (by simp)
  refine ⟨next, ?_, ?_⟩
  · rw [acceptAll_cons rfl, push, acceptAll_append_of_ok runInside,
      acceptAll_cons (accept_closeBracket unwound rfl)]
    exact runLater
  · intro bound below
    rw [released bound below, Tree.itemsOf_append, List.reverse_append, List.append_assoc]

/-- The function of a call stays on the stack until an operator comes, and takes what is there. -/
theorem Settles.call {text : String} {definition : Function} {inner rest : List Token}
    {arguments forest : List Tree} (known : registry.callee text = .ok definition)
    (inside : Assembles registry (.arguments definition.arity arguments) inner)
    (later : Settles registry rest [] forest) :
    Settles registry (.call text :: (inner ++ .closeBracket :: rest)) []
      [.node (.function definition) (arguments ++ forest)] := by
  intro pending output _
  obtain ⟨middle, last, runInside, count, unwound⟩ :=
    inside (some definition) 0 (.function definition :: pending) output
  have closes : Closes (some definition) last := by
    rw [Nat.zero_add] at count
    exact count
  obtain ⟨next, runLater, released⟩ := later (.function definition :: pending) _ (by simp)
  refine ⟨next, ?_, ?_⟩
  · rw [acceptAll_cons (accept_call known _), openCall, push, push,
      acceptAll_append_of_ok runInside, acceptAll_cons (accept_closeBracket unwound closes)]
    exact runLater
  · intro bound below
    have yields : (Pending.function definition).Yields bound := trivial
    rw [released bound below, release_of_yields yields]
    simp [Tree.itemsOf, Tree.items, Tree.itemsOf_append, Pending.item?]

theorem Assembles.argument {tokens : List Token} {operators : List Operator}
    {trees : List Tree} (only : Settles registry tokens operators trees) :
    Assembles registry (.arguments 1 trees) tokens := by
  intro call separators pending output
  obtain ⟨next, run, unwound⟩ := only.above_bracket call separators pending output
  exact ⟨next, separators, run, rfl, unwound⟩

theorem Assembles.separator {count : Nat} {before after : List Token} {operators : List Operator}
    {forest trees : List Tree} (left : Assembles registry (.arguments count forest) before)
    (right : Settles registry after operators trees) :
    Assembles registry (.arguments (count + 1) (forest ++ trees)) (before ++ .separator :: after) := by
  intro call separators pending output
  obtain ⟨middle, last, runLeft, counted, unwoundLeft⟩ := left call separators pending output
  obtain ⟨next, runRight, unwound⟩ :=
    right.above_bracket call (last + 1) pending ((Tree.itemsOf forest).reverse ++ output)
  refine ⟨next, last + 1, ?_, by omega, ?_⟩
  · rw [acceptAll_append_of_ok runLeft, acceptAll_cons (accept_separator unwoundLeft)]
    exact runRight
  · rw [unwound, Tree.itemsOf_append, List.reverse_append, List.append_assoc]

theorem assembles_of_phrase (ranked : registry.Ranked) {part : Part} {tokens : List Token}
    (phrase : Phrase registry part tokens) : Assembles registry part tokens := by
  induction phrase with
  | empty => exact .empty
  | word known _ ih => exact .word known ih
  | bracket _ _ ihInside ihLater => exact (ihInside.settles ranked).bracket ihLater
  | call known _ _ ihInside ihLater => exact .call known ihInside ihLater
  | single _ ih => exact .operands ih
  | operator _ known _ ihLeft ihRight => exact ihLeft.extend known ihRight
  | argument _ ih => exact .argument (ih.settles ranked)
  | separator _ _ ihLeft ihRight => exact .separator ihLeft (ihRight.settles ranked)

end Assembly

/-! ## Reading accepted tokens back -/

namespace Phrase

variable {registry : Registry}

/-- A part goes on with more operands. -/
theorem more {part : Part} {tokens later : List Token} {forest : List Tree}
    (phrase : Phrase registry part tokens) (operands : Phrase registry (.operands forest) later) :
    match part with
    | .operands _ => ∃ all, Phrase registry (.operands all) (tokens ++ later)
    | .chain _ => ∃ chain, Phrase registry (.chain chain) (tokens ++ later)
    | .arguments count _ => ∃ all, Phrase registry (.arguments count all) (tokens ++ later) := by
  induction phrase with
  | empty => exact ⟨forest, operands⟩
  | word known _ ih =>
      obtain ⟨all, phrase⟩ := ih
      exact ⟨_, .word known phrase⟩
  | bracket inside _ _ ih =>
      obtain ⟨all, phrase⟩ := ih
      exact ⟨_, by simpa using Phrase.bracket inside phrase⟩
  | call known inside _ _ ih =>
      obtain ⟨all, phrase⟩ := ih
      exact ⟨_, by simpa using Phrase.call known inside phrase⟩
  | single _ ih =>
      obtain ⟨all, phrase⟩ := ih
      exact ⟨_, .single phrase⟩
  | operator left known _ _ ih =>
      obtain ⟨all, phrase⟩ := ih
      exact ⟨_, by simpa using Phrase.operator left known phrase⟩
  | argument _ ih =>
      obtain ⟨chain, phrase⟩ := ih
      exact ⟨_, .argument phrase⟩
  | separator left _ _ ih =>
      obtain ⟨chain, phrase⟩ := ih
      exact ⟨_, by simpa using Phrase.separator left phrase⟩

/-- The last argument goes on with an operator. -/
theorem more_operator {count : Nat} {forest : List Tree} {tokens : List Token} {symbol : Char}
    {definition : Operator} (phrase : Phrase registry (.arguments count forest) tokens)
    (known : registry.operators.find? symbol = some definition) :
    ∃ all, Phrase registry (.arguments count all) (tokens ++ [.operator symbol]) := by
  cases phrase with
  | argument only => exact ⟨_, .argument (.operator only known .empty)⟩
  | separator left right =>
      exact ⟨_, by simpa using Phrase.separator left (.operator right known .empty)⟩

theorem count_pos {count : Nat} {forest : List Tree} {tokens : List Token}
    (phrase : Phrase registry (.arguments count forest) tokens) : 0 < count := by
  cases phrase with
  | argument only => exact Nat.one_pos
  | separator left right => exact Nat.succ_pos _

theorem chain_of_one_argument {forest : List Tree} {tokens : List Token}
    (phrase : Phrase registry (.arguments 1 forest) tokens) :
    ∃ chain, Phrase registry (.chain chain) tokens := by
  cases phrase with
  | argument only => exact ⟨_, only⟩
  | separator left right => exact absurd left.count_pos (Nat.lt_irrefl 0)

end Phrase

/-- Tokens with brackets that are still open, the innermost first, and their separators. -/
inductive Opened (registry : Registry) : List (Option Function × Nat) → List Token → Prop where
  | outermost {chain : Chain (List Tree)} {tokens : List Token}
      (phrase : Phrase registry (.chain chain) tokens) : Opened registry [] tokens
  | bracket {stack : List (Option Function × Nat)} {outer inner : List Token} {separators : Nat}
      {forest : List Tree} (below : Opened registry stack outer)
      (inside : Phrase registry (.arguments (separators + 1) forest) inner) :
      Opened registry ((none, separators) :: stack) (outer ++ .openBracket :: inner)
  | call {stack : List (Option Function × Nat)} {outer inner : List Token} {separators : Nat}
      {forest : List Tree} {text : String} {definition : Function}
      (below : Opened registry stack outer) (known : registry.callee text = .ok definition)
      (inside : Phrase registry (.arguments (separators + 1) forest) inner) :
      Opened registry ((some definition, separators) :: stack) (outer ++ .call text :: inner)

namespace Opened

variable {registry : Registry}

theorem more {stack : List (Option Function × Nat)} {tokens later : List Token}
    {forest : List Tree} (opened : Opened registry stack tokens)
    (operands : Phrase registry (.operands forest) later) :
    Opened registry stack (tokens ++ later) := by
  cases opened with
  | outermost phrase =>
      obtain ⟨chain, all⟩ := phrase.more operands
      exact .outermost all
  | bracket below inside =>
      obtain ⟨all, phrase⟩ := inside.more operands
      simpa using Opened.bracket below phrase
  | call below known inside =>
      obtain ⟨all, phrase⟩ := inside.more operands
      simpa using Opened.call below known phrase

theorem more_operator {stack : List (Option Function × Nat)} {tokens : List Token}
    {symbol : Char} {definition : Operator} (opened : Opened registry stack tokens)
    (known : registry.operators.find? symbol = some definition) :
    Opened registry stack (tokens ++ [.operator symbol]) := by
  cases opened with
  | outermost phrase => exact .outermost (.operator phrase known .empty)
  | bracket below inside =>
      obtain ⟨all, phrase⟩ := inside.more_operator known
      simpa using Opened.bracket below phrase
  | call below callee inside =>
      obtain ⟨all, phrase⟩ := inside.more_operator known
      simpa using Opened.call below callee phrase

theorem more_separator {call : Option Function} {separators : Nat}
    {stack : List (Option Function × Nat)} {tokens : List Token}
    (opened : Opened registry ((call, separators) :: stack) tokens) :
    Opened registry ((call, separators + 1) :: stack) (tokens ++ [.separator]) := by
  cases opened with
  | bracket below inside =>
      simpa using Opened.bracket below (.separator inside (.single .empty))
  | call below known inside =>
      simpa using Opened.call below known (.separator inside (.single .empty))

theorem close {call : Option Function} {separators : Nat}
    {stack : List (Option Function × Nat)} {tokens : List Token}
    (opened : Opened registry ((call, separators) :: stack) tokens)
    (closes : Assembly.Closes call separators) :
    Opened registry stack (tokens ++ [.closeBracket]) := by
  cases opened with
  | bracket below inside =>
      subst closes
      obtain ⟨chain, phrase⟩ := inside.chain_of_one_argument
      simpa using below.more (.bracket phrase .empty)
  | call below known inside =>
      change separators + 1 = _ at closes
      rw [closes] at inside
      simpa using below.more (.call known inside .empty)

/-- Every accepted token keeps the open brackets of the stack in step with those of the tokens. -/
theorem accepts (ranked : registry.Ranked) {assembly next : Assembly} {read : List Token}
    {token : Token} (opened : Opened registry (Assembly.brackets assembly.pending) read)
    (accepts : Assembly.Accepts registry assembly token next) :
    Opened registry (Assembly.brackets next.pending) (read ++ [token]) := by
  cases accepts with
  | word known => exact opened.more (.word known .empty)
  | call known => exact .call opened known (.argument (.single .empty))
  | operator known =>
      rw [Assembly.brackets_pushOperator_of_ne assembly (ranked known)]
      exact opened.more_operator known
  | openBracket => exact .bracket opened (.argument (.single .empty))
  | separator unwound =>
      rw [← Assembly.brackets_unwind unwound] at opened
      exact opened.more_separator
  | closeBracket unwound closes =>
      rw [← Assembly.brackets_unwind unwound] at opened
      exact opened.close closes

end Opened

/-- The whole of a chain leaves nothing but its items. -/
theorem Phrase.unwinds {registry : Registry} (ranked : registry.Ranked)
    {chain : Chain (List Tree)} {tokens : List Token}
    (phrase : Phrase registry (.chain chain) tokens) :
    ∃ assembly, Assembly.empty.acceptAll registry tokens = .ok assembly ∧
      assembly.unwind = ⟨[], (Tree.itemsOf (chain.grouped Tree.joinForests)).reverse⟩ := by
  have settles := (Assembly.assembles_of_phrase ranked phrase).settles ranked
  have nothing : ∀ operator ∈ chain.operators, Assembly.Stops operator.precedence [] := by
    intro operator _ entry top
    cases top
  obtain ⟨assembly, run, released⟩ := settles [] [] nothing
  refine ⟨assembly, run, ?_⟩
  rw [Assembly.unwind, released .openBracket fun operator _ => Nat.zero_le _, List.append_nil]
  rfl

/-- A source is assembled exactly when its tokens are a chain, into the items of its forest. -/
theorem assemble_eq_ok_iff {registry : Registry} (ranked : registry.Ranked) {source : List Char}
    {items : List Item} :
    assemble registry source = .ok items ↔
      ∃ chain, Phrase registry (.chain chain) (Token.ofSource registry.isOperator source) ∧
        items = Tree.itemsOf (chain.grouped Tree.joinForests) := by
  constructor
  · intro assembled
    obtain ⟨assembly, accepted, finished⟩ := assemble_eq_ok assembled
    obtain ⟨output, unwound, rfl⟩ := Assembly.finish_eq_ok finished
    have opened := Assembly.acceptAll_induction
      (motive := fun read assembly => Opened registry (Assembly.brackets assembly.pending) read)
      (fun opened accepts => opened.accepts ranked accepts) [] (.outermost (.single .empty)) accepted
    rw [← Assembly.brackets_unwind unwound] at opened
    cases opened with
    | @outermost chain _ phrase =>
        obtain ⟨next, run, listed⟩ := phrase.unwinds ranked
        have same : assembly = next := Except.ok.inj (accepted.symm.trans run)
        rw [← same, unwound] at listed
        refine ⟨chain, phrase, ?_⟩
        rw [(Assembly.mk.inj listed).2, List.reverse_reverse]
  · rintro ⟨chain, phrase, rfl⟩
    obtain ⟨assembly, run, unwound⟩ := phrase.unwinds ranked
    rw [assemble, run]
    change assembly.finish = _
    rw [Assembly.finish, unwound]
    simp

end Calculator
