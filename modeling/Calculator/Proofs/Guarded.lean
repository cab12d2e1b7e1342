import Calculator.Proofs.Errors
import Calculator.Proofs.Postorder
import Calculator.Proofs.Scan
import Calculator.Proofs.Stack

/-!
# Compilation with guards

Here a stack entry is one record for operators, calls and brackets, which are
told apart by the precedence alone, and every operation that is made for some
states only checks that it is used in one of them: a read of the stack needs an
entry, an entry that is moved to the output needs an item, a symbol needs an
operator, and operands are cut off a stack that has as many. No check ever
fails, and the answer is that of the compilation without guards.
-/

namespace Calculator.Guarded

/-- An operation used outside the states it is made for. -/
inductive Breach where
  | emptyStack
  | missingItem
  | unknownOperator (symbol : Char)
  | operandRange (arity count : Nat)

inductive Failure where
  | parse (error : ParseError)
  | breach (cause : Breach)

/-- An operator, a call that is pending, or a bracket; what is not used is absent. -/
structure Entry where
  precedence : Precedence
  item : Option Item
  call : Option Function
  separators : Nat

/-- The stack, top first, and the output, last item first. -/
structure State where
  stack : List Entry
  output : List Item

def malformed {α : Type} (target : String) : Except Failure α :=
  .error (.parse (.malformed target))

def breach {α : Type} (cause : Breach) : Except Failure α :=
  .error (.breach cause)

/-! ## Guarded operations -/

def top (stack : List Entry) : Except Failure Entry :=
  match stack with
  | [] => breach .emptyStack
  | entry :: _ => .ok entry

/-- The top of the stack and the entries below it. -/
def pop (stack : List Entry) :
    Except Failure { popped : Entry × List Entry // popped.2.length < stack.length } :=
  match stack with
  | [] => breach .emptyStack
  | entry :: rest => .ok ⟨(entry, rest), Nat.lt_succ_self _⟩

def Entry.required (entry : Entry) : Except Failure Item :=
  match entry.item with
  | some item => .ok item
  | none => breach .missingItem

def operatorOf (registry : Registry) (symbol : Char) : Except Failure Operator :=
  match registry.operators.find? symbol with
  | some definition => .ok definition
  | none => breach (.unknownOperator symbol)

/-- The topmost heights, and those below them. -/
def operands (arity : Nat) (heights : List Nat) : Except Failure (List Nat × List Nat) :=
  if 1 ≤ arity ∧ arity ≤ heights.length then .ok (heights.take arity, heights.drop arity)
  else breach (.operandRange arity heights.length)

/-! ## Assembly -/

def Entry.isBracket (entry : Entry) : Bool :=
  entry.precedence = .openBracket

/-- Moves entries to the output down to one that stops. -/
def release (stops : Entry → Bool) (stack : List Entry) (output : List Item) :
    Except Failure State :=
  if stack.isEmpty then .ok ⟨stack, output⟩
  else do
    let entry ← top stack
    if stops entry then return ⟨stack, output⟩
    let ⟨(_, rest), _⟩ ← pop stack
    let item ← entry.required
    release stops rest (item :: output)
termination_by stack.length

def pushOperator (state : State) (definition : Operator) : Except Failure State := do
  let released ← release
    (fun entry => entry.isBracket || entry.precedence.rank < definition.precedence.rank)
    state.stack state.output
  return ⟨⟨definition.precedence, some (.operator definition), none, 0⟩ :: released.stack,
    released.output⟩

/-- Reduces to the nearest bracket, which is dropped or counts one more separator. -/
def reduceToBracket (state : State) (close : Bool) : Except Failure State := do
  let reduced ← release Entry.isBracket state.stack state.output
  if reduced.stack.isEmpty then malformed ""
  else
    let bracket ← top reduced.stack
    if !close then
      return ⟨{ bracket with separators := bracket.separators + 1 } :: reduced.stack.tail,
        reduced.output⟩
    let ⟨(_, rest), _⟩ ← pop reduced.stack
    match bracket.call with
    | some definition =>
        if bracket.separators + 1 ≠ definition.arity then malformed definition.name
        else return ⟨rest, reduced.output⟩
    | none =>
        if bracket.separators ≠ 0 then malformed "" else return ⟨rest, reduced.output⟩

def accept (registry : Registry) (state : State) : Token → Except Failure State
  | .word text => do
      let value ← (registry.valueOf text).mapError .parse
      return { state with output := .literal value :: state.output }
  | .call text => do
      let definition ← (registry.callee text).mapError .parse
      return { state with stack := ⟨.openBracket, none, some definition, 0⟩ ::
        ⟨.function, some (.function definition), none, 0⟩ :: state.stack }
  | .operator symbol => do
      let definition ← operatorOf registry symbol
      pushOperator state definition
  | .openBracket => return { state with stack := ⟨.openBracket, none, none, 0⟩ :: state.stack }
  | .separator => reduceToBracket state false
  | .closeBracket => reduceToBracket state true
  | .misplacedSign => malformed ""

/-- Moves all entries to the output, none of which may be a bracket. -/
def drain (stack : List Entry) (output : List Item) : Except Failure (List Item) :=
  if stack.isEmpty then .ok output.reverse
  else do
    let ⟨(entry, rest), _⟩ ← pop stack
    if entry.isBracket then malformed ""
    else
      let item ← entry.required
      drain rest (item :: output)
termination_by stack.length

def assemble (registry : Registry) (source : List Char) : Except Failure (List Item) := do
  let state ← (Token.ofSource registry.isOperator source).foldlM (accept registry) ⟨[], []⟩
  drain state.stack state.output

/-! ## The operand check -/

/-- The height of an item over its operands, and the heights below them. -/
def itemHeight (heights : List Nat) (item : Item) : Except Failure (Nat × List Nat) :=
  if item.arity = 0 then .ok (1, heights)
  else do
    let (taken, rest) ← operands item.arity heights
    return (heightOver taken, rest)

def stackHeight (maxDepth : Int) (heights : List Nat) (item : Item) : Except Failure (List Nat) :=
  if heights.length < item.arity then malformed item.text
  else do
    let (height, rest) ← itemHeight heights item
    if maxDepth < height then malformed "" else return height :: rest

def checkOperands (items : List Item) (maxDepth : Int) : Except Failure Unit := do
  match ← items.foldlM (stackHeight maxDepth) [] with
  | [_] => return ()
  | _ => malformed ""

def compile (registry : Registry) (expression : String) (maxDepth : Int) :
    Except Failure Program := do
  let source := Text.stripBlanks expression
  let items ← assemble registry source.toList
  checkOperands items maxDepth
  return ⟨items, source, maxDepth⟩

/-! ## Entries and what they stand for -/

/-- An entry without an item is a bracket; a bracket may have one when an operator made it. -/
inductive Entry.Mirrors : Entry → Pending → Prop where
  | operator (definition : Operator) (binds : definition.precedence ≠ .openBracket) :
      Mirrors ⟨definition.precedence, some (.operator definition), none, 0⟩ (.operator definition)
  | function (definition : Function) :
      Mirrors ⟨.function, some (.function definition), none, 0⟩ (.function definition)
  | bracket (item : Option Item) (call : Option Function) (separators : Nat) :
      Mirrors ⟨.openBracket, item, call, separators⟩ (.bracket call separators)

inductive Mirrors : List Entry → List Pending → Prop where
  | nil : Mirrors [] []
  | cons {entry : Entry} {waiting : Pending} {stack : List Entry} {pending : List Pending}
      (first : entry.Mirrors waiting) (rest : Mirrors stack pending) :
      Mirrors (entry :: stack) (waiting :: pending)

structure State.Mirrors (state : State) (assembly : Assembly) : Prop where
  stack : Guarded.Mirrors state.stack assembly.pending
  output : state.output = assembly.output

namespace Entry.Mirrors

variable {entry : Entry} {waiting : Pending} {bound : Precedence}

/-- An entry that yields has an item. -/
theorem required (mirrors : entry.Mirrors waiting) (yields : waiting.Yields bound) :
    ∃ item, entry.required = .ok item ∧ waiting.item?.toList = [item] := by
  cases mirrors with
  | operator definition binds => exact ⟨_, rfl, rfl⟩
  | function definition => exact ⟨_, rfl, rfl⟩
  | bracket item call separators => cases yields

theorem isBracket (mirrors : entry.Mirrors waiting) :
    entry.isBracket = true ↔ ¬ waiting.Yields .openBracket := by
  cases mirrors with
  | operator definition binds => simp [Entry.isBracket, Pending.Yields, Precedence.rank, binds]
  | function definition => simp [Entry.isBracket, Pending.Yields]
  | bracket item call separators => simp [Entry.isBracket, Pending.Yields]

theorem stops (mirrors : entry.Mirrors waiting) (bound : Precedence) :
    (entry.isBracket || entry.precedence.rank < bound.rank) = true ↔ ¬ waiting.Yields bound := by
  cases mirrors with
  | operator definition binds => simp [Entry.isBracket, Pending.Yields, binds]
  | function definition => simp [Entry.isBracket, Pending.Yields, bound.rank_le_function]
  | bracket item call separators => simp [Entry.isBracket, Pending.Yields]

end Entry.Mirrors

/-! ## Releases -/

theorem release_nil (stops : Entry → Bool) (output : List Item) :
    release stops [] output = .ok ⟨[], output⟩ := by
  rw [release]
  rfl

theorem release_of_stops {stops : Entry → Bool} {entry : Entry} (stay : stops entry = true)
    (rest : List Entry) (output : List Item) :
    release stops (entry :: rest) output = .ok ⟨entry :: rest, output⟩ := by
  rw [release]
  simp [top, bind, Except.bind, pure, Except.pure, stay]

theorem release_of_required {stops : Entry → Bool} {entry : Entry} {item : Item}
    (yields : stops entry = false) (known : entry.required = .ok item) (rest : List Entry)
    (output : List Item) :
    release stops (entry :: rest) output = release stops rest (item :: output) := by
  rw [release]
  simp [top, pop, bind, Except.bind, yields, known]

theorem drain_nil (output : List Item) : drain [] output = .ok output.reverse := by
  rw [drain]
  rfl

theorem drain_of_isBracket {entry : Entry} (isBracket : entry.isBracket = true)
    (rest : List Entry) (output : List Item) : drain (entry :: rest) output = malformed "" := by
  rw [drain]
  simp [pop, bind, Except.bind, isBracket]

theorem drain_of_required {entry : Entry} {item : Item} (yields : entry.isBracket = false)
    (known : entry.required = .ok item) (rest : List Entry) (output : List Item) :
    drain (entry :: rest) output = drain rest (item :: output) := by
  rw [drain]
  simp [pop, bind, Except.bind, yields, known]

/-- A release that stops where the other does commits no breach. -/
theorem Mirrors.release {stops : Entry → Bool} {bound : Precedence}
    (halts : ∀ {entry waiting}, Entry.Mirrors entry waiting →
      (stops entry = true ↔ ¬ waiting.Yields bound))
    {stack : List Entry} {pending : List Pending} (mirrors : Mirrors stack pending)
    (output : List Item) :
    ∃ released, Guarded.release stops stack output = .ok released ∧
      released.Mirrors (Assembly.release bound pending output) := by
  induction mirrors generalizing output with
  | nil => exact ⟨⟨[], output⟩, release_nil stops output, .nil, rfl⟩
  | @cons entry waiting stack pending first rest ih =>
      by_cases yields : waiting.Yields bound
      · obtain ⟨item, known, same⟩ := first.required yields
        have moves : stops entry = false := by
          rw [← Bool.not_eq_true, halts first]
          exact not_not_intro yields
        rw [release_of_required moves known, Assembly.release_of_yields yields, same]
        exact ih (item :: output)
      · have stay : stops entry = true := (halts first).2 yields
        have stays : Assembly.Stops bound (waiting :: pending) := by
          intro other same
          cases same
          exact yields
        rw [release_of_stops stay, Assembly.release_of_stops output stays]
        exact ⟨_, rfl, .cons first rest, rfl⟩

theorem finish_of_yields {waiting : Pending} (yields : waiting.Yields .openBracket)
    (pending : List Pending) (output : List Item) :
    Assembly.finish ⟨waiting :: pending, output⟩ =
      Assembly.finish ⟨pending, waiting.item?.toList ++ output⟩ := by
  unfold Assembly.finish Assembly.unwind
  rw [Assembly.release_of_yields yields]

theorem finish_of_stops {waiting : Pending} {pending : List Pending} {output : List Item}
    (stays : Assembly.Stops .openBracket (waiting :: pending)) :
    Assembly.finish ⟨waiting :: pending, output⟩ = .error (.malformed "") := by
  unfold Assembly.finish Assembly.unwind
  rw [Assembly.release_of_stops output stays]

/-- The final drain is the final release. -/
theorem Mirrors.drain {stack : List Entry} {pending : List Pending}
    (mirrors : Mirrors stack pending) (output : List Item) :
    Guarded.drain stack output = (Assembly.finish ⟨pending, output⟩).mapError .parse := by
  induction mirrors generalizing output with
  | nil => exact drain_nil output
  | @cons entry waiting stack pending first rest ih =>
      by_cases yields : waiting.Yields .openBracket
      · obtain ⟨item, known, same⟩ := first.required yields
        have moves : entry.isBracket = false := by
          rw [← Bool.not_eq_true, first.isBracket]
          exact not_not_intro yields
        rw [drain_of_required moves known, finish_of_yields yields, same]
        exact ih (item :: output)
      · have stays : Assembly.Stops .openBracket (waiting :: pending) := by
          intro other same
          cases same
          exact yields
        rw [drain_of_isBracket (first.isBracket.2 yields), finish_of_stops stays]
        rfl

/-! ## Tokens -/

section

variable {ε δ α β : Type}

@[simp]
theorem mapError_ok (value : α) (f : ε → δ) : (Except.ok value).mapError f = .ok value :=
  rfl

@[simp]
theorem mapError_error (error : ε) (f : ε → δ) :
    (Except.error error : Except ε α).mapError f = .error (f error) :=
  rfl

theorem mapError_bind (outcome : Except ε α) (next : α → Except ε β) (f : ε → δ) :
    (outcome >>= next).mapError f = outcome.mapError f >>= fun value => (next value).mapError f := by
  cases outcome with
  | error error => rfl
  | ok value => rfl

end

/-- Above the nearest bracket nothing is left, and below it everything is as it was. -/
theorem State.Mirrors.unwind {state : State} {assembly : Assembly}
    (mirrors : state.Mirrors assembly) :
    (∃ output, release Entry.isBracket state.stack state.output = .ok ⟨[], output⟩ ∧
      assembly.unwind = ⟨[], output⟩) ∨
    ∃ item call separators stack pending output,
      release Entry.isBracket state.stack state.output =
        .ok ⟨⟨.openBracket, item, call, separators⟩ :: stack, output⟩ ∧
      assembly.unwind = ⟨.bracket call separators :: pending, output⟩ ∧
      Guarded.Mirrors stack pending := by
  rw [mirrors.output]
  obtain ⟨⟨stack, output⟩, reached, kept, same⟩ :=
    mirrors.stack.release (fun first => first.isBracket) assembly.output
  obtain ⟨moved, pending, _, _, stops, unwound⟩ :=
    Assembly.release_spec .openBracket assembly.pending assembly.output
  rw [unwound] at kept same
  cases same
  cases kept with
  | nil => exact .inl ⟨_, reached, unwound⟩
  | @cons entry waiting stack pending first rest =>
      cases first with
      | operator definition binds => exact absurd (Nat.zero_le _) (stops _ rfl)
      | function definition => exact absurd trivial (stops _ rfl)
      | bracket item call separators =>
          exact .inr ⟨_, _, _, _, _, _, reached, unwound, rest⟩

theorem State.Mirrors.pushOperator {state : State} {assembly : Assembly}
    (mirrors : state.Mirrors assembly) (definition : Operator) :
    ∃ next, Guarded.pushOperator state definition = .ok next ∧
      next.Mirrors (assembly.pushOperator definition) := by
  obtain ⟨released, reached, kept⟩ :=
    mirrors.stack.release (fun first => first.stops definition.precedence) assembly.output
  have pushed : Guarded.pushOperator state definition =
      .ok ⟨⟨definition.precedence, some (.operator definition), none, 0⟩ :: released.stack,
        released.output⟩ := by
    rw [Guarded.pushOperator, mirrors.output, reached]
    rfl
  refine ⟨_, pushed, .cons ?_ kept.stack, kept.output⟩
  unfold Assembly.entryOf
  by_cases lowest : definition.precedence = .openBracket
  · rw [if_pos lowest, lowest]
    exact .bracket _ _ _
  · rw [if_neg lowest]
    exact .operator definition lowest

theorem State.Mirrors.separate {state : State} {assembly : Assembly}
    (mirrors : state.Mirrors assembly) :
    Agree State.Mirrors (reduceToBracket state false) (assembly.separate.mapError .parse) := by
  rcases mirrors.unwind with ⟨output, reached, unwound⟩ |
    ⟨item, call, separators, stack, pending, output, reached, unwound, rest⟩
  · rw [reduceToBracket, reached, Assembly.separate, unwound]
    exact .error _
  · rw [reduceToBracket, reached, Assembly.separate, unwound]
    exact .ok ⟨.cons (.bracket _ _ _) rest, rfl⟩

theorem State.Mirrors.closeBracket {state : State} {assembly : Assembly}
    (mirrors : state.Mirrors assembly) :
    Agree State.Mirrors (reduceToBracket state true) (assembly.closeBracket.mapError .parse) := by
  rcases mirrors.unwind with ⟨output, reached, unwound⟩ |
    ⟨item, call, separators, stack, pending, output, reached, unwound, rest⟩
  · rw [reduceToBracket, reached, Assembly.closeBracket, unwound]
    exact .error _
  · rw [reduceToBracket, reached, Assembly.closeBracket, unwound]
    cases call with
    | some definition =>
        change Agree _ (if separators + 1 ≠ definition.arity then _ else _)
          (Except.mapError _ (if separators + 1 = definition.arity then _ else _))
        by_cases count : separators + 1 = definition.arity
        · rw [if_neg (not_not_intro count), if_pos count]
          exact .ok ⟨rest, rfl⟩
        · rw [if_pos count, if_neg count]
          exact .error _
    | none =>
        change Agree _ (if separators ≠ 0 then _ else _)
          (Except.mapError _ (if separators = 0 then _ else _))
        by_cases count : separators = 0
        · rw [if_neg (not_not_intro count), if_pos count]
          exact .ok ⟨rest, rfl⟩
        · rw [if_pos count, if_neg count]
          exact .error _

/-- A token does the same to both, provided its symbol is an operator. -/
theorem State.Mirrors.accept {registry : Registry} {state : State} {assembly : Assembly}
    (mirrors : state.Mirrors assembly) {token : Token}
    (known : ∀ symbol, token = .operator symbol → registry.isOperator symbol = true) :
    Agree State.Mirrors (Guarded.accept registry state token)
      ((Assembly.accept registry assembly token).mapError .parse) := by
  cases token with
  | word text =>
      rw [Guarded.accept, Assembly.accept_word_eq]
      cases registry.valueOf text with
      | error error => exact .error _
      | ok value => exact .ok ⟨mirrors.stack, congrArg _ mirrors.output⟩
  | call text =>
      rw [Guarded.accept, Assembly.accept_call_eq]
      cases registry.callee text with
      | error error => exact .error _
      | ok definition =>
          have call := Mirrors.cons (.function definition) mirrors.stack
          exact .ok ⟨.cons (.bracket _ _ _) call, mirrors.output⟩
  | operator symbol =>
      obtain ⟨definition, found⟩ := Option.isSome_iff_exists.1 (known symbol rfl)
      obtain ⟨next, reached, kept⟩ := mirrors.pushOperator definition
      rw [Guarded.accept, Assembly.accept, operatorOf, found]
      change Agree _ (Guarded.pushOperator state definition) (.ok _)
      rw [reached]
      exact .ok kept
  | openBracket => exact .ok ⟨.cons (.bracket _ _ _) mirrors.stack, mirrors.output⟩
  | separator => exact mirrors.separate
  | closeBracket => exact mirrors.closeBracket
  | misplacedSign => exact .error _

theorem State.Mirrors.acceptAll {registry : Registry} {tokens : List Token}
    (known : ∀ symbol, .operator symbol ∈ tokens → registry.isOperator symbol = true)
    {state : State} {assembly : Assembly} (mirrors : state.Mirrors assembly) :
    Agree State.Mirrors (tokens.foldlM (Guarded.accept registry) state)
      ((assembly.acceptAll registry tokens).mapError .parse) := by
  induction tokens generalizing state assembly with
  | nil => exact .ok mirrors
  | cons token rest ih =>
      have now : ∀ symbol, token = .operator symbol → registry.isOperator symbol = true := by
        rintro symbol rfl
        exact known symbol List.mem_cons_self
      have later : ∀ symbol, .operator symbol ∈ rest → registry.isOperator symbol = true :=
        fun symbol member => known symbol (List.mem_cons_of_mem _ member)
      rw [Assembly.acceptAll, List.foldlM_cons, List.foldlM_cons, mapError_bind]
      exact (mirrors.accept now).bind fun _ _ _ kept => ih later kept

/-- The assembly commits no breach. -/
theorem assemble_eq (registry : Registry) (source : List Char) :
    assemble registry source = (Calculator.assemble registry source).mapError .parse := by
  have known : ∀ symbol, .operator symbol ∈ Token.ofSource registry.isOperator source →
      registry.isOperator symbol = true :=
    fun symbol member => Scan.isOperator_of_mem_tokens member
  have start : State.Mirrors ⟨[], []⟩ Assembly.empty := ⟨.nil, rfl⟩
  have drained (state : State) (assembly : Assembly) (mirrors : state.Mirrors assembly) :
      drain state.stack state.output = assembly.finish.mapError .parse := by
    rw [mirrors.output]
    exact mirrors.stack.drain assembly.output
  rw [assemble, Calculator.assemble, mapError_bind]
  refine Agree.eq ((start.acceptAll known).bind ?_)
  intro state assembly _ mirrors
  rw [drained state assembly mirrors]
  exact .refl _

/-! ## Operands -/

/-- Operands are cut off a stack that holds as many. -/
theorem itemHeight_eq {heights : List Nat} {item : Item} (enough : item.arity ≤ heights.length) :
    itemHeight heights item =
      .ok (heightOver (heights.take item.arity), heights.drop item.arity) := by
  unfold itemHeight
  by_cases none : item.arity = 0
  · simp [none, heightOver]
  · have inRange : 1 ≤ item.arity ∧ item.arity ≤ heights.length :=
      ⟨Nat.pos_of_ne_zero none, enough⟩
    rw [if_neg none, operands, if_pos inRange]
    rfl

theorem stackHeight_eq (maxDepth : Int) (heights : List Nat) (item : Item) :
    stackHeight maxDepth heights item = (item.stack maxDepth heights).mapError .parse := by
  unfold stackHeight Item.stack
  by_cases missing : heights.length < item.arity
  · rw [if_pos missing, if_pos missing]
    rfl
  · rw [if_neg missing, if_neg missing, itemHeight_eq (Nat.le_of_not_lt missing)]
    by_cases tooDeep : maxDepth < (heightOver (heights.take item.arity) : Int)
    · simp [tooDeep, malformed, bind, Except.bind]
    · simp [tooDeep, bind, Except.bind, pure, Except.pure]

theorem foldlM_stackHeight (maxDepth : Int) (items : List Item) (heights : List Nat) :
    items.foldlM (stackHeight maxDepth) heights =
      (items.foldlM (Item.stack maxDepth) heights).mapError .parse := by
  induction items generalizing heights with
  | nil => rfl
  | cons item rest ih =>
      rw [List.foldlM_cons, List.foldlM_cons, mapError_bind, stackHeight_eq]
      exact congrArg _ (funext ih)

theorem checkOperands_eq (items : List Item) (maxDepth : Int) :
    checkOperands items maxDepth = (Calculator.checkOperands items maxDepth).mapError .parse := by
  rw [checkOperands, Calculator.checkOperands, foldlM_stackHeight, mapError_bind]
  refine congrArg _ (funext fun heights => ?_)
  match heights with
  | [] => rfl
  | [_] => rfl
  | _ :: _ :: _ => rfl

/-! ## Compilation -/

theorem compile_eq (registry : Registry) (expression : String) (maxDepth : Int) :
    compile registry expression maxDepth =
      (Calculator.compile registry expression maxDepth).mapError .parse := by
  rw [compile, Calculator.compile, mapError_bind, assemble_eq]
  refine congrArg _ (funext fun items => ?_)
  rw [mapError_bind, checkOperands_eq]
  exact congrArg _ (funext fun _ => rfl)

/-- Whatever the registry and the expression, the answer is a program with an item or an error that
tells what is wrong, and it is reached without a breach. -/
theorem compile_commits_no_breach (registry : Registry) (expression : String) (maxDepth : Int) :
    (∃ program, compile registry expression maxDepth = .ok program ∧
        Calculator.compile registry expression maxDepth = .ok program ∧ program.items ≠ []) ∨
      ∃ error, compile registry expression maxDepth = .error (.parse error) ∧
        Calculator.compile registry expression maxDepth = .error error ∧ error.kind ≠ .none := by
  have same := compile_eq registry expression maxDepth
  cases outcome : Calculator.compile registry expression maxDepth with
  | error error =>
      rw [outcome] at same
      have tells := telling_compile registry expression maxDepth error outcome
      exact .inr ⟨error, same, rfl, by simpa [ParseError.isError] using tells⟩
  | ok program =>
      rw [outcome] at same
      obtain ⟨items, _, passes, shape⟩ := compile_eq_ok_iff.1 outcome
      obtain ⟨tree, _, _, listed⟩ := checkOperands_eq_ok_iff.1 passes
      refine .inl ⟨program, same, rfl, ?_⟩
      rw [shape, ← listed]
      exact tree.items_ne_nil

end Calculator.Guarded
