import Calculator.Compile

/-!
# The stack of an assembly

What one token does to an assembly, as a relation with one case for each kind
of token, and what a release moves to the output. Whatever every token keeps
holds after all of them.
-/

namespace Calculator

theorem bind_eq_ok {ε α β : Type} {first : Except ε α} {next : α → Except ε β} {result : β}
    (run : first >>= next = .ok result) :
    ∃ value, first = .ok value ∧ next value = .ok result := by
  cases first with
  | error error => cases run
  | ok value => exact ⟨value, rfl, run⟩

theorem bind_eq_ok_iff {ε α β : Type} {first : Except ε α} {next : α → Except ε β} {result : β} :
    first >>= next = .ok result ↔ ∃ value, first = .ok value ∧ next value = .ok result := by
  refine ⟨bind_eq_ok, ?_⟩
  rintro ⟨value, rfl, run⟩
  exact run

theorem map_eq_ok {ε α β : Type} {first : Except ε α} {f : α → β} {result : β}
    (run : first.map f = .ok result) : ∃ value, first = .ok value ∧ f value = result := by
  cases first with
  | error error => cases run
  | ok value => exact ⟨value, rfl, Except.ok.inj run⟩

/-- The same error, or two related values. -/
inductive Agree {ε α β : Type} (related : α → β → Prop) : Except ε α → Except ε β → Prop where
  | error (error : ε) : Agree related (.error error) (.error error)
  | ok {value : α} {other : β} (same : related value other) : Agree related (.ok value) (.ok other)

namespace Agree

variable {ε α β γ δ : Type} {related : α → β → Prop} {relatedNext : γ → δ → Prop}

theorem refl (outcome : Except ε α) : Agree (fun value other => value = other) outcome outcome := by
  cases outcome with
  | error error => exact .error error
  | ok value => exact .ok rfl

theorem eq {first second : Except ε α}
    (agree : Agree (fun value other => value = other) first second) : first = second := by
  cases agree with
  | error error => rfl
  | ok same => rw [same]

theorem bind {first : Except ε α} {second : Except ε β} {next : α → Except ε γ}
    {nextSecond : β → Except ε δ} (agree : Agree related first second)
    (later : ∀ value other, first = .ok value → related value other →
      Agree relatedNext (next value) (nextSecond other)) :
    Agree relatedNext (first >>= next) (second >>= nextSecond) := by
  cases agree with
  | error error => exact .error error
  | ok same => exact later _ _ rfl same

theorem map {first : Except ε α} {second : Except ε β} {f : α → γ} {g : β → δ}
    (agree : Agree related first second)
    (kept : ∀ value other, related value other → relatedNext (f value) (g other)) :
    Agree relatedNext (first.map f) (second.map g) := by
  cases agree with
  | error error => exact .error error
  | ok same => exact .ok (kept _ _ same)

end Agree

theorem Registry.find?_of_callee {registry : Registry} {name : String} {definition : Function}
    (known : registry.callee name = .ok definition) :
    registry.functions.find? name = some definition := by
  unfold callee at known
  split at known
  next found => cases known; exact found
  next => cases known

namespace Pending

/-- The item that an entry becomes; a bracket becomes none. -/
def item? : Pending → Option Item
  | .operator definition => some (.operator definition)
  | .function definition => some (.function definition)
  | .bracket _ _ => none

/-- A release down to the bound moves the entry. -/
def Yields (bound : Precedence) : Pending → Prop
  | .operator definition => bound.rank ≤ definition.precedence.rank
  | .function _ => True
  | .bracket _ _ => False

/-- The call and the separators of a bracket. -/
def bracket? : Pending → Option (Option Function × Nat)
  | .bracket call separators => some (call, separators)
  | _ => none

theorem bracket?_of_yields {bound : Precedence} {entry : Pending} (yields : entry.Yields bound) :
    entry.bracket? = none := by
  cases entry with
  | operator definition => rfl
  | function definition => rfl
  | bracket call separators => cases yields

end Pending

namespace Assembly

/-! ## Releases -/

/-- The bound stops at the top of the stack. -/
def Stops (bound : Precedence) (pending : List Pending) : Prop :=
  ∀ entry ∈ pending.head?, ¬ entry.Yields bound

theorem release_of_stops {bound : Precedence} {pending : List Pending} (output : List Item)
    (stops : Stops bound pending) : release bound pending output = ⟨pending, output⟩ := by
  cases pending with
  | nil => rfl
  | cons entry rest =>
      have stays := stops entry rfl
      cases entry with
      | operator definition => exact if_neg stays
      | function definition => exact absurd trivial stays
      | bracket call separators => rfl

theorem release_of_yields {bound : Precedence} {entry : Pending} (yields : entry.Yields bound)
    (rest : List Pending) (output : List Item) :
    release bound (entry :: rest) output = release bound rest (entry.item?.toList ++ output) := by
  cases entry with
  | operator definition => exact if_pos yields
  | function definition => rfl
  | bracket call separators => cases yields

/-- A release moves the entries that yield to the output and stops at the first that does not. -/
theorem release_spec (bound : Precedence) (pending : List Pending) (output : List Item) :
    ∃ moved kept, pending = moved ++ kept ∧ (∀ entry ∈ moved, entry.Yields bound) ∧
      Stops bound kept ∧
      release bound pending output = ⟨kept, (moved.filterMap Pending.item?).reverse ++ output⟩ := by
  induction pending generalizing output with
  | nil => exact ⟨[], [], rfl, by simp, by simp [Stops], rfl⟩
  | cons entry rest ih =>
      by_cases yields : entry.Yields bound
      · obtain ⟨moved, kept, rfl, all, stops, released⟩ := ih (entry.item?.toList ++ output)
        refine ⟨entry :: moved, kept, rfl, ?_, stops, ?_⟩
        · intro other member
          rcases List.mem_cons.1 member with rfl | later
          · exact yields
          · exact all other later
        · rw [release_of_yields yields, released]
          cases entry with
          | operator definition => simp [Pending.item?]
          | function definition => simp [Pending.item?]
          | bracket call separators => cases yields
      · have stops : Stops bound (entry :: rest) := by
          intro top same
          cases same
          exact yields
        exact ⟨[], entry :: rest, rfl, by simp, stops, release_of_stops output stops⟩

/-- The open brackets with their separators, the innermost first. -/
def brackets (pending : List Pending) : List (Option Function × Nat) :=
  pending.filterMap Pending.bracket?

theorem brackets_release (bound : Precedence) (pending : List Pending) (output : List Item) :
    brackets (release bound pending output).pending = brackets pending := by
  obtain ⟨moved, kept, rfl, all, _, released⟩ := release_spec bound pending output
  have none : moved.filterMap Pending.bracket? = [] :=
    List.filterMap_eq_nil_iff.2 fun entry member => Pending.bracket?_of_yields (all entry member)
  rw [released, brackets, brackets, List.filterMap_append, none, List.nil_append]

theorem brackets_unwind {assembly unwound : Assembly} (same : assembly.unwind = unwound) :
    brackets unwound.pending = brackets assembly.pending := by
  rw [← same]
  exact brackets_release _ _ _

theorem brackets_pushOperator_of_ne (assembly : Assembly) {definition : Operator}
    (ranked : definition.precedence ≠ .openBracket) :
    brackets (assembly.pushOperator definition).pending = brackets assembly.pending := by
  rw [pushOperator, entryOf, if_neg ranked]
  exact brackets_release _ _ _

/-! ## What a token does -/

/-- The separators that a bracket must have when it is closed. -/
def Closes : Option Function → Nat → Prop
  | some definition, separators => separators + 1 = definition.arity
  | none, separators => separators = 0

/-- An accepted token and what it makes of an assembly. -/
inductive Accepts (registry : Registry) (assembly : Assembly) : Token → Assembly → Prop where
  | word {text : String} {value : Float} (known : registry.valueOf text = .ok value) :
      Accepts registry assembly (.word text) (assembly.emit (.literal value))
  | call {text : String} {definition : Function} (known : registry.callee text = .ok definition) :
      Accepts registry assembly (.call text) (assembly.openCall definition)
  | operator {symbol : Char} {definition : Operator}
      (known : registry.operators.find? symbol = some definition) :
      Accepts registry assembly (.operator symbol) (assembly.pushOperator definition)
  | openBracket : Accepts registry assembly .openBracket (assembly.push (.bracket none 0))
  | separator {call : Option Function} {separators : Nat} {rest : List Pending}
      {output : List Item} (unwound : assembly.unwind = ⟨.bracket call separators :: rest, output⟩) :
      Accepts registry assembly .separator ⟨.bracket call (separators + 1) :: rest, output⟩
  | closeBracket {call : Option Function} {separators : Nat} {rest : List Pending}
      {output : List Item} (unwound : assembly.unwind = ⟨.bracket call separators :: rest, output⟩)
      (closes : Closes call separators) :
      Accepts registry assembly .closeBracket ⟨rest, output⟩

theorem separate_eq_ok {registry : Registry} {assembly next : Assembly}
    (accepted : assembly.separate = .ok next) : Accepts registry assembly .separator next := by
  unfold separate at accepted
  split at accepted
  next unwound => cases accepted; exact .separator unwound
  next => cases accepted

theorem closeBracket_eq_ok {registry : Registry} {assembly next : Assembly}
    (accepted : assembly.closeBracket = .ok next) :
    Accepts registry assembly .closeBracket next := by
  unfold closeBracket at accepted
  split at accepted
  next unwound =>
    split at accepted
    next count => cases accepted; exact .closeBracket unwound count
    next => cases accepted
  next unwound =>
    split at accepted
    next count => cases accepted; exact .closeBracket unwound count
    next => cases accepted
  next => cases accepted

theorem accepts_of_accept {registry : Registry} {assembly next : Assembly} {token : Token}
    (accepted : accept registry assembly token = .ok next) :
    Accepts registry assembly token next := by
  cases token with
  | word text =>
      rw [accept_word_eq] at accepted
      obtain ⟨value, known, rfl⟩ := map_eq_ok accepted
      exact .word known
  | call text =>
      rw [accept_call_eq] at accepted
      obtain ⟨definition, known, rfl⟩ := map_eq_ok accepted
      exact .call known
  | operator symbol =>
      rw [accept] at accepted
      cases known : registry.operators.find? symbol with
      | none =>
          rw [known] at accepted
          cases accepted
      | some definition =>
          rw [known] at accepted
          cases accepted
          exact .operator known
  | openBracket => cases accepted; exact .openBracket
  | separator => exact separate_eq_ok accepted
  | closeBracket => exact closeBracket_eq_ok accepted
  | misplacedSign => cases accepted

/-- What holds at the start and is kept by every accepted token holds after all of them. -/
theorem acceptAll_induction {registry : Registry} {motive : List Token → Assembly → Prop}
    (step : ∀ {read assembly token next}, motive read assembly →
      Accepts registry assembly token next → motive (read ++ [token]) next)
    (read : List Token) {tokens : List Token} {assembly last : Assembly}
    (start : motive read assembly) (accepted : acceptAll registry assembly tokens = .ok last) :
    motive (read ++ tokens) last := by
  induction tokens generalizing read assembly with
  | nil =>
      cases accepted
      simpa using start
  | cons token rest ih =>
      rw [acceptAll, List.foldlM_cons] at accepted
      obtain ⟨next, first, later⟩ := bind_eq_ok accepted
      have kept := ih (read ++ [token]) (step start (accepts_of_accept first)) later
      simpa using kept

/-- Every token has been accepted by some assembly on the way. -/
theorem exists_accepts_of_mem {registry : Registry} {tokens : List Token} {assembly last : Assembly}
    (accepted : acceptAll registry assembly tokens = .ok last) {token : Token}
    (member : token ∈ tokens) : ∃ before after, Accepts registry before token after := by
  refine acceptAll_induction
    (motive := fun read _ => ∀ other ∈ read, ∃ before after, Accepts registry before other after)
    ?_ [] (by simp) accepted token (by simpa using member)
  intro read reached other next earlier accepts another inside
  rcases List.mem_append.1 inside with old | new
  · exact earlier another old
  · cases List.mem_singleton.1 new
    exact ⟨reached, next, accepts⟩

end Assembly

/-! ## Where the items come from -/

/-- A property of all literals and of every definition of a registry. -/
structure Registry.Ensures (registry : Registry) (motive : Item → Prop) : Prop where
  literal : ∀ value, motive (.literal value)
  operator : ∀ {symbol definition},
    registry.operators.find? symbol = some definition → motive (.operator definition)
  function : ∀ {name definition},
    registry.functions.find? name = some definition → motive (.function definition)

/-- The items of an assembly, those in the output and those that still wait. -/
def Assembly.Holds (motive : Item → Prop) (assembly : Assembly) : Prop :=
  (∀ item ∈ assembly.output, motive item) ∧
    ∀ entry ∈ assembly.pending, ∀ item ∈ entry.item?, motive item

namespace Assembly

theorem Holds.release {motive : Item → Prop} {pending : List Pending} {output : List Item}
    (holds : Holds motive ⟨pending, output⟩) (bound : Precedence) :
    Holds motive (release bound pending output) := by
  obtain ⟨moved, kept, rfl, _, _, released⟩ := release_spec bound pending output
  rw [released]
  constructor
  · intro item member
    rcases List.mem_append.1 member with waiting | done
    · rw [List.mem_reverse, List.mem_filterMap] at waiting
      obtain ⟨entry, inMoved, same⟩ := waiting
      exact holds.2 entry (List.mem_append_left _ inMoved) item same
    · exact holds.1 item done
  · intro entry member
    exact holds.2 entry (List.mem_append_right _ member)

theorem Holds.push {motive : Item → Prop} {assembly : Assembly} {entry : Pending}
    (holds : Holds motive assembly) (new : ∀ item ∈ entry.item?, motive item) :
    Holds motive (assembly.push entry) := by
  refine ⟨holds.1, ?_⟩
  intro other member
  rcases List.mem_cons.1 member with rfl | old
  · exact new
  · exact holds.2 other old

theorem Holds.unwind {motive : Item → Prop} {assembly : Assembly} (holds : Holds motive assembly) :
    Holds motive assembly.unwind :=
  holds.release .openBracket

/-- Every token keeps what the registry ensures. -/
theorem Holds.accepts {registry : Registry} {motive : Item → Prop}
    (ensures : registry.Ensures motive) {assembly next : Assembly} {token : Token}
    (holds : Holds motive assembly) (accepts : Accepts registry assembly token next) :
    Holds motive next := by
  cases accepts with
  | @word text value known =>
      refine ⟨?_, holds.2⟩
      intro item member
      rcases List.mem_cons.1 member with rfl | old
      · exact ensures.literal value
      · exact holds.1 item old
  | @call text definition known =>
      have first : ∀ item ∈ (Pending.function definition).item?, motive item := by
        intro item same
        cases same
        exact ensures.function (Registry.find?_of_callee known)
      have second : ∀ item ∈ (Pending.bracket (some definition) 0).item?, motive item := by
        intro item same
        cases same
      exact (holds.push first).push second
  | @operator symbol definition known =>
      refine (holds.release definition.precedence).push ?_
      intro item same
      unfold entryOf at same
      split at same
      · cases same
      · cases same
        exact ensures.operator known
  | openBracket =>
      refine holds.push ?_
      intro item same
      cases same
  | separator unwound =>
      have inner := holds.unwind
      rw [unwound] at inner
      refine ⟨inner.1, ?_⟩
      intro entry member
      rcases List.mem_cons.1 member with rfl | old
      · intro item same
        cases same
      · exact inner.2 entry (List.mem_cons_of_mem _ old)
  | closeBracket unwound closes =>
      have inner := holds.unwind
      rw [unwound] at inner
      exact ⟨inner.1, fun entry member => inner.2 entry (List.mem_cons_of_mem _ member)⟩

/-- A finished assembly lists its output. -/
theorem finish_eq_ok {assembly : Assembly} {items : List Item}
    (finished : assembly.finish = .ok items) :
    ∃ output, assembly.unwind = ⟨[], output⟩ ∧ items = output.reverse := by
  unfold finish at finished
  split at finished
  next output unwound => cases finished; exact ⟨output, unwound, rfl⟩
  next => cases finished

end Assembly

theorem assemble_eq_ok {registry : Registry} {source : List Char} {items : List Item}
    (assembled : assemble registry source = .ok items) :
    ∃ assembly, Assembly.empty.acceptAll registry (Token.ofSource registry.isOperator source) =
      .ok assembly ∧ assembly.finish = .ok items :=
  bind_eq_ok assembled

/-- What a registry ensures holds of every item of an assembled program. -/
theorem Registry.Ensures.assemble {registry : Registry} {motive : Item → Prop}
    (ensures : registry.Ensures motive) {source : List Char} {items : List Item}
    (assembled : assemble registry source = .ok items) : ∀ item ∈ items, motive item := by
  obtain ⟨assembly, accepted, finished⟩ := assemble_eq_ok assembled
  have start : Assembly.empty.Holds motive := ⟨by simp [Assembly.empty], by simp [Assembly.empty]⟩
  have holds : assembly.Holds motive :=
    Assembly.acceptAll_induction (motive := fun _ assembly => assembly.Holds motive)
      (fun holds accepts => holds.accepts ensures accepts) [] start accepted
  obtain ⟨output, unwound, rfl⟩ := Assembly.finish_eq_ok finished
  have kept := holds.unwind
  rw [unwound] at kept
  intro item member
  exact kept.1 item (List.mem_reverse.1 member)

/-- A compiled program lists the items of its source, which pass the operand check. -/
theorem compile_eq_ok_iff {registry : Registry} {expression : String} {maxDepth : Int}
    {program : Program} :
    compile registry expression maxDepth = .ok program ↔
      ∃ items, assemble registry (Text.stripBlanks expression).toList = .ok items ∧
        checkOperands items maxDepth = .ok () ∧
        program = ⟨items, Text.stripBlanks expression, maxDepth⟩ := by
  constructor
  · intro compiled
    obtain ⟨items, assembled, checked⟩ := bind_eq_ok compiled
    obtain ⟨_, passes, done⟩ := bind_eq_ok checked
    exact ⟨items, assembled, passes, (Except.ok.inj done).symm⟩
  · rintro ⟨items, assembled, passes, rfl⟩
    simp [compile, assembled, passes, bind, Except.bind, pure, Except.pure]

end Calculator
