import Calculator.Proofs.Catalog
import Calculator.Proofs.Phrase
import Calculator.Proofs.Prefix

/-!
# Arrangement of the stack

What stands on the stack after some characters. Every opening bracket that is
still open has an entry, which stands on the function that it calls, if any,
and counts the separators of its level. Between two brackets the entries bind
tighter from one to the next, except that a function may stand on an entry
that binds as tightly. Each accepted token keeps the order of the entries, and
each character turns the open brackets as it turns those of the source.
-/

namespace Calculator

namespace Pending

/-- How tightly an entry binds; a bracket binds least. -/
def precedence : Pending → Precedence
  | .operator definition => definition.precedence
  | .function _ => .function
  | .bracket _ _ => .openBracket

/-- The upper entry binds tighter, or it is a function and binds as tightly. -/
def Over (upper lower : Pending) : Prop :=
  lower.precedence.rank < upper.precedence.rank ∨
    (lower.precedence.rank = upper.precedence.rank ∧ ∃ definition, upper = .function definition)

theorem Over.trans {upper middle lower : Pending} (first : upper.Over middle)
    (second : middle.Over lower) : upper.Over lower := by
  rcases first with tighter | ⟨same, isFunction⟩
  · rcases second with below | ⟨equal, _⟩
    · exact .inl (Nat.lt_trans below tighter)
    · exact .inl (equal ▸ tighter)
  · rcases second with below | ⟨equal, _⟩
    · exact .inl (same ▸ below)
    · exact .inr ⟨equal.trans same, isFunction⟩

end Pending

namespace Assembly

variable {registry : Registry}

/-! ## The order of the entries -/

/-- The entries of a stack as they come to stand on each other. -/
inductive Stacked : List Pending → Prop where
  | nil : Stacked []
  | operator {definition : Operator} {pending : List Pending} (below : Stacked pending)
      (binds : Stops definition.precedence pending) : Stacked (.operator definition :: pending)
  | function (definition : Function) {pending : List Pending} (below : Stacked pending) :
      Stacked (.function definition :: pending)
  | bracket (separators : Nat) {pending : List Pending} (below : Stacked pending) :
      Stacked (.bracket none separators :: pending)
  | call (definition : Function) (separators : Nat) {pending : List Pending}
      (below : Stacked pending) :
      Stacked (.bracket (some definition) separators :: .function definition :: pending)

namespace Stacked

theorem tail {entry : Pending} {pending : List Pending} (stacked : Stacked (entry :: pending)) :
    Stacked pending := by
  cases stacked with
  | operator below _ => exact below
  | function _ below => exact below
  | bracket _ below => exact below
  | call definition _ below => exact .function definition below

theorem drop (above : List Pending) {pending : List Pending}
    (stacked : Stacked (above ++ pending)) : Stacked pending := by
  induction above with
  | nil => exact stacked
  | cons entry above ih => exact ih stacked.tail

theorem release {pending : List Pending} (stacked : Stacked pending) (bound : Precedence)
    (output : List Item) : Stacked (release bound pending output).pending := by
  obtain ⟨moved, kept, rfl, _, _, released⟩ := release_spec bound pending output
  rw [released]
  exact stacked.drop moved

theorem unwind {assembly unwound : Assembly} (stacked : Stacked assembly.pending)
    (same : assembly.unwind = unwound) : Stacked unwound.pending := by
  rw [← same]
  exact stacked.release _ _

theorem recount {call : Option Function} {separators : Nat} {pending : List Pending}
    (stacked : Stacked (.bracket call separators :: pending)) (other : Nat) :
    Stacked (.bracket call other :: pending) := by
  cases stacked with
  | bracket _ below => exact .bracket other below
  | call definition _ below => exact .call definition other below

/-- An operator comes to stand where the release that it asked for has stopped. -/
theorem pushOperator {assembly : Assembly} (stacked : Stacked assembly.pending)
    (definition : Operator) : Stacked (assembly.pushOperator definition).pending := by
  have below := stacked.release definition.precedence assembly.output
  obtain ⟨moved, kept, _, _, stops, released⟩ :=
    release_spec definition.precedence assembly.pending assembly.output
  rw [Assembly.pushOperator, push, entryOf]
  rw [released] at below ⊢
  split
  · exact .bracket 0 below
  · exact .operator below stops

/-- Every accepted token keeps the order of the entries. -/
theorem accepts {assembly next : Assembly} {token : Token} (stacked : Stacked assembly.pending)
    (accepts : Accepts registry assembly token next) : Stacked next.pending := by
  cases accepts with
  | word known => exact stacked
  | call known => exact .call _ 0 stacked
  | operator known => exact stacked.pushOperator _
  | openBracket => exact .bracket 0 stacked
  | separator unwound => exact (stacked.unwind unwound).recount _
  | closeBracket unwound closes => exact (stacked.unwind unwound).tail

theorem acceptAll {tokens : List Token} {assembly : Assembly}
    (accepted : empty.acceptAll registry tokens = .ok assembly) : Stacked assembly.pending :=
  acceptAll_induction (motive := fun _ reached => Stacked reached.pending)
    (fun stacked accepts => stacked.accepts accepts) [] .nil accepted

theorem head_over {upper lower : Pending} {pending : List Pending}
    (stacked : Stacked (upper :: lower :: pending)) (upperWaits : upper.bracket? = none)
    (lowerWaits : lower.bracket? = none) : upper.Over lower := by
  cases stacked with
  | @operator definition _ below binds =>
      have stays : ¬ lower.Yields definition.precedence := binds lower rfl
      cases lower with
      | operator other => exact .inl (Nat.lt_of_not_le stays)
      | function other => exact absurd trivial stays
      | bracket call separators => cases lowerWaits
  | function definition below =>
      rcases Nat.lt_or_eq_of_le lower.precedence.rank_le_function with less | equal
      · exact .inl less
      · exact .inr ⟨equal, definition, rfl⟩
  | bracket separators below => cases upperWaits
  | call definition separators below => cases upperWaits

/-- Within a stretch without brackets each entry stands over all that are below it. -/
theorem pairwise {stretch below : List Pending} (stacked : Stacked (stretch ++ below))
    (wait : ∀ entry ∈ stretch, entry.bracket? = none) : stretch.Pairwise Pending.Over := by
  induction stretch with
  | nil => exact .nil
  | cons upper rest ih =>
      have later := ih stacked.tail fun entry member => wait entry (List.mem_cons_of_mem _ member)
      refine List.pairwise_cons.2 ⟨?_, later⟩
      intro other member
      -- It is enough to look at the next entry, for `Over` is transitive.
      cases rest with
      | nil => cases member
      | cons lower more =>
          have first : upper.Over lower :=
            stacked.head_over (wait upper (by simp)) (wait lower (by simp))
          rcases List.mem_cons.1 member with rfl | deeper
          · exact first
          · exact first.trans ((List.pairwise_cons.1 later).1 other deeper)

theorem exists_function {definition : Function} {separators : Nat} {below : List Pending}
    (stacked : Stacked (.bracket (some definition) separators :: below)) :
    ∃ rest, below = .function definition :: rest := by
  cases stacked with
  | call _ _ below => exact ⟨_, rfl⟩

end Stacked

end Assembly

/-! ## The levels of a source -/

/-- The separators among the characters that stand within no bracket opened among them. -/
def ownSeparators (inside : List Char) : Nat :=
  (List.range inside.length).countP fun index =>
    inside[index]? = some ',' ∧ (inside.take index).count '(' = (inside.take index).count ')'

theorem ownSeparators_concat (inside : List Char) (c : Char) :
    ownSeparators (inside ++ [c]) =
      ownSeparators inside + if c = ',' ∧ inside.count '(' = inside.count ')' then 1 else 0 := by
  have earlier : ∀ index ∈ List.range inside.length,
      (decide ((inside ++ [c])[index]? = some ',' ∧
          ((inside ++ [c]).take index).count '(' = ((inside ++ [c]).take index).count ')') = true ↔
        decide (inside[index]? = some ',' ∧
          (inside.take index).count '(' = (inside.take index).count ')') = true) := by
    intro index member
    have within := List.mem_range.1 member
    rw [List.getElem?_append_left within, List.take_append_of_le_length (Nat.le_of_lt within)]
  rw [ownSeparators, List.length_append, List.length_singleton, List.range_succ,
    List.countP_append, List.countP_congr earlier, ownSeparators, List.countP_singleton]
  simp

/--
A bracket that the characters open and leave open: what stands before it and since, how many
brackets are open around it and within it, and how many separators stand at its level.
-/
structure Level (before earlier since : List Char) (outer inner separators : Nat) : Prop where
  split : before = earlier ++ '(' :: since
  unclosed : ∀ first, first <+: since → first.count ')' ≤ first.count '('
  around : earlier.count '(' = earlier.count ')' + outer
  within : since.count '(' = since.count ')' + inner
  counted : separators = ownSeparators since

theorem Level.concat {before earlier since : List Char} {outer inner separators : Nat}
    (level : Level before earlier since outer inner separators) {c : Char} {next total : Nat}
    (turned : inner + [c].count '(' = next + [c].count ')')
    (added : total = separators + if c = ',' ∧ inner = 0 then 1 else 0) :
    Level (before ++ [c]) earlier (since ++ [c]) outer next total := by
  have within : (since ++ [c]).count '(' = (since ++ [c]).count ')' + next := by
    rw [List.count_append, List.count_append, level.within]
    omega
  refine ⟨?_, ?_, level.around, within, ?_⟩
  · rw [level.split, List.append_assoc, List.cons_append]
  · intro first begins
    rcases List.prefix_concat_iff.1 begins with rfl | earlier
    · omega
    · exact level.unclosed first earlier
  · have here : since.count '(' = since.count ')' ↔ inner = 0 := by
      have balance := level.within
      omega
    rw [ownSeparators_concat, ← level.counted, added]
    simp only [here]

/-- Since a place was opened, there has always been one more bracket open than around it. -/
theorem Level.count_ne {before earlier gap later : List Char} {outer inner separators : Nat}
    (level : Level before earlier (gap ++ later) outer inner separators) :
    (earlier ++ '(' :: gap).count '(' ≠ (earlier ++ '(' :: gap).count ')' + outer := by
  have around := level.around
  have unclosed := level.unclosed gap (List.prefix_append gap later)
  have opening : ('(' :: gap).count '(' = gap.count '(' + 1 := List.count_cons_self
  have closing : ('(' :: gap).count ')' = gap.count ')' := List.count_cons_of_ne (by decide)
  rw [List.count_append, List.count_append, opening, closing]
  omega

/-- There is one place for each number of brackets around it. -/
theorem Level.unique {before earlier since other later : List Char}
    {outer inner separators innerLater separatorsLater : Nat}
    (first : Level before earlier since outer inner separators)
    (second : Level before other later outer innerLater separatorsLater) :
    earlier = other ∧ since = later := by
  have split := first.split.symm.trans second.split
  rcases List.append_eq_append_iff.1 split with ⟨gap, rfl, rest⟩ | ⟨gap, rfl, rest⟩
  · cases gap with
    | nil => exact ⟨(List.append_nil _).symm, (List.cons.inj rest).2⟩
    | cons c gap =>
        obtain ⟨rfl, rfl⟩ := List.cons.inj rest
        exact absurd second.around first.count_ne
  · cases gap with
    | nil => exact ⟨List.append_nil _, (List.cons.inj rest).2.symm⟩
    | cons c gap =>
        obtain ⟨rfl, rfl⟩ := List.cons.inj rest
        exact absurd first.around second.count_ne

/-- What a character makes of the open brackets, the innermost first. -/
inductive Turns : Char → List (Option Function × Nat) → List (Option Function × Nat) → Prop where
  | opens (call : Option Function) (levels : List (Option Function × Nat)) :
      Turns '(' levels ((call, 0) :: levels)
  | closes (level : Option Function × Nat) (levels : List (Option Function × Nat)) :
      Turns ')' (level :: levels) levels
  | separates (call : Option Function) (separators : Nat)
      (levels : List (Option Function × Nat)) :
      Turns ',' ((call, separators) :: levels) ((call, separators + 1) :: levels)
  | keeps {c : Char} (free : isReserved c = false) (levels : List (Option Function × Nat)) :
      Turns c levels levels

theorem Turns.length_add {c : Char} {levels next : List (Option Function × Nat)}
    (turns : Turns c levels next) :
    levels.length + [c].count '(' = next.length + [c].count ')' := by
  cases turns with
  | opens call => rfl
  | closes level => rfl
  | separates call separators levels => rfl
  | keeps free => rw [(count_of_not_reserved free).1, (count_of_not_reserved free).2]

/-- The open brackets, the innermost first, are those that the characters leave open. -/
structure Leveled (before : List Char) (levels : List (Option Function × Nat)) : Prop where
  count : before.count '(' = before.count ')' + levels.length
  level : ∀ inner call separators outer, levels = inner ++ (call, separators) :: outer →
    ∃ earlier since, Level before earlier since outer.length inner.length separators

theorem Leveled.nil : Leveled [] [] := by
  refine ⟨rfl, ?_⟩
  intro inner call separators outer split
  cases inner with
  | nil => cases split
  | cons first rest => cases split

theorem Leveled.turns {before : List Char} {levels next : List (Option Function × Nat)} {c : Char}
    (leveled : Leveled before levels) (turns : Turns c levels next) :
    Leveled (before ++ [c]) next := by
  have count : (before ++ [c]).count '(' = (before ++ [c]).count ')' + next.length := by
    have balance := turns.length_add
    rw [List.count_append, List.count_append, leveled.count]
    omega
  refine ⟨count, ?_⟩
  cases turns with
  | opens call =>
      intro inner known separators outer split
      cases inner with
      | nil =>
          -- The new bracket has all others around it.
          cases split
          exact ⟨before, [], rfl, by simp, leveled.count, rfl, rfl⟩
      | cons first inner =>
          obtain ⟨_, rest⟩ := List.cons.inj split
          obtain ⟨earlier, since, level⟩ := leveled.level _ _ _ _ rest
          exact ⟨earlier, since ++ ['('], level.concat rfl (by simp)⟩
  | closes last =>
      -- The bracket that is closed stood within all that are left.
      rintro inner known separators outer rfl
      obtain ⟨earlier, since, level⟩ := leveled.level (last :: inner) _ _ _ rfl
      exact ⟨earlier, since ++ [')'], level.concat rfl (by simp)⟩
  | separates call separators levels =>
      intro inner known total outer split
      cases inner with
      | nil =>
          cases split
          obtain ⟨earlier, since, level⟩ := leveled.level [] _ _ _ rfl
          exact ⟨earlier, since ++ [','], level.concat rfl (by simp)⟩
      | cons first inner =>
          obtain ⟨_, rfl⟩ := List.cons.inj split
          obtain ⟨earlier, since, level⟩ := leveled.level ((call, separators) :: inner) _ _ _ rfl
          exact ⟨earlier, since ++ [','], level.concat rfl (by simp)⟩
  | keeps free =>
      intro inner known separators outer split
      obtain ⟨opening, closing⟩ := count_of_not_reserved free
      have noSeparator : ¬ (c = ',' ∧ inner.length = 0) :=
        fun both => (isReserved_eq_false_iff.1 free).2.2 both.1
      obtain ⟨earlier, since, level⟩ := leveled.level _ _ _ _ split
      refine ⟨earlier, since ++ [c], level.concat ?_ ?_⟩
      · rw [opening, closing]
      · rw [if_neg noSeparator, Nat.add_zero]

/-! ## What a character does to the stack -/

namespace Assembly

variable {registry : Registry}

theorem accepts_of_acceptAll_singleton {assembly next : Assembly} {token : Token}
    (accepted : assembly.acceptAll registry [token] = .ok next) :
    Accepts registry assembly token next := by
  rw [acceptAll, List.foldlM_cons] at accepted
  obtain ⟨reached, step, done⟩ := bind_eq_ok accepted
  cases done
  exact accepts_of_accept step

/-- The word that ends before a token leaves the stack as it is. -/
theorem exists_accepts_of_finish {scan : Scan} {assembly next : Assembly} {token : Token}
    (accepted : assembly.acceptAll registry (scan.finish ++ [token]) = .ok next) :
    ∃ ended : Assembly, ended.pending = assembly.pending ∧ Accepts registry ended token next := by
  unfold Scan.finish at accepted
  split at accepted
  next => exact ⟨assembly, rfl, accepts_of_acceptAll_singleton accepted⟩
  next =>
    rw [acceptAll_append] at accepted
    obtain ⟨ended, word, last⟩ := bind_eq_ok accepted
    cases accepts_of_acceptAll_singleton word with
    | @word _ value known =>
        exact ⟨assembly.emit (.literal value), rfl, accepts_of_acceptAll_singleton last⟩

end Assembly

namespace Registry

variable {registry : Registry}

/-- A character turns the open brackets of the stack as it turns those of the source. -/
theorem turns_of_assembled (symbols : Unreserved registry.isOperator) (ranked : registry.Ranked)
    {before : List Char} {c : Char} {assembly next : Assembly}
    (reached : registry.assembled before = .ok assembly)
    (later : registry.assembled (before ++ [c]) = .ok next) :
    Turns c (Assembly.brackets assembly.pending) (Assembly.brackets next.pending) := by
  have step := registry.assembled_concat before c
  rw [reached, later] at step
  have accepted := step.symm
  change assembly.acceptAll registry _ = _ at accepted
  rcases Scan.read_cases symbols (Scan.after registry.isOperator before) c with
    ⟨operator, inside⟩ | ⟨operator, nested⟩ | ⟨_, rfl | rfl | rfl⟩ | ⟨notReserved, sign⟩
  · rw [Scan.read_operator operator inside, Scan.close_eq] at accepted
    obtain ⟨ended, same, accepts⟩ := Assembly.exists_accepts_of_finish accepted
    cases accepts with
    -- No operator is kept as a bracket here, so only entries between brackets change.
    | operator known =>
        rw [Assembly.brackets_pushOperator_of_ne _ (ranked known), same]
        exact .keeps (symbols c operator) _
  · rw [Scan.read_misplacedSign operator nested] at accepted
    cases Assembly.accepts_of_acceptAll_singleton accepted
  · rw [Scan.read_openBracket _ (symbols.not_operator rfl)] at accepted
    dsimp only at accepted
    split at accepted
    next =>
      cases Assembly.accepts_of_acceptAll_singleton accepted with
      | openBracket => exact .opens none _
    next =>
      cases Assembly.accepts_of_acceptAll_singleton accepted with
      | @call _ definition known => exact .opens (some definition) _
  · rw [Scan.read_closeBracket _ (symbols.not_operator rfl), Scan.close_eq] at accepted
    obtain ⟨ended, same, accepts⟩ := Assembly.exists_accepts_of_finish accepted
    cases accepts with
    | closeBracket unwound closes =>
        rw [← same, ← Assembly.brackets_unwind unwound]
        exact .closes _ _
  · rw [Scan.read_separator _ (symbols.not_operator rfl), Scan.close_eq] at accepted
    obtain ⟨ended, same, accepts⟩ := Assembly.exists_accepts_of_finish accepted
    cases accepts with
    | separator unwound =>
        rw [← same, ← Assembly.brackets_unwind unwound]
        exact .separates _ _ _
  · rw [Scan.read_extend notReserved sign] at accepted
    cases accepted
    exact .keeps notReserved _

theorem leveled_of_assembled (symbols : Unreserved registry.isOperator) (ranked : registry.Ranked)
    {before : List Char} {assembly : Assembly}
    (reached : registry.assembled before = .ok assembly) :
    Leveled before (Assembly.brackets assembly.pending) := by
  induction before using List.reverseRecOn generalizing assembly with
  | nil =>
      cases reached
      exact .nil
  | append_singleton before c ih =>
      have step := registry.assembled_concat before c
      rw [reached] at step
      obtain ⟨earlier, first, _⟩ := bind_eq_ok step.symm
      exact (ih first).turns (turns_of_assembled symbols ranked first reached)

end Registry

/-- How the stack stands after the characters. -/
structure Arranged (before : List Char) (pending : List Pending) : Prop where
  /-- There is an entry for every opening bracket that has not been closed. -/
  count : before.count '(' = before.count ')' + (Assembly.brackets pending).length
  /-- The bracket of a call stands on its function. -/
  call : ∀ above definition separators below,
    pending = above ++ .bracket (some definition) separators :: below →
      ∃ rest, below = .function definition :: rest
  /-- A bracket counts the separators of its level since the one place where it was opened. -/
  separators : ∀ above call separators below,
    pending = above ++ .bracket call separators :: below →
      ∃! place : List Char × List Char, Level before place.1 place.2
        (Assembly.brackets below).length (Assembly.brackets above).length separators
  /-- Between two brackets the entries bind tighter and tighter. -/
  rising : ∀ above stretch below, pending = above ++ stretch ++ below →
    (∀ entry ∈ stretch, entry.bracket? = none) → stretch.Pairwise Pending.Over

theorem Leveled.arranged {before : List Char} {pending : List Pending}
    (leveled : Leveled before (Assembly.brackets pending)) (stacked : Assembly.Stacked pending) :
    Arranged before pending := by
  refine ⟨leveled.count, ?_, ?_, ?_⟩
  · rintro above definition separators below rfl
    exact (stacked.drop above).exists_function
  · rintro above call separators below rfl
    have split : Assembly.brackets (above ++ .bracket call separators :: below) =
        Assembly.brackets above ++ (call, separators) :: Assembly.brackets below := by
      rw [Assembly.brackets, List.filterMap_append]
      rfl
    obtain ⟨earlier, since, level⟩ := leveled.level _ _ _ _ split
    refine ⟨(earlier, since), level, ?_⟩
    intro other alike
    obtain ⟨sameEarlier, sameSince⟩ := alike.unique level
    exact Prod.ext sameEarlier sameSince
  · rintro above stretch below rfl wait
    rw [List.append_assoc] at stacked
    exact (stacked.drop above).pairwise wait

/--
After every character of a source that has not been refused so far, the stack from which the rest
is assembled is arranged in levels: one bracket for each that is open, on the function it calls, with
the separators of its level, and between the brackets entries that bind tighter and tighter.
-/
theorem Registry.Built.arranged_of_assembled {registry : Registry} (built : registry.Built)
    (ranked : registry.Ranked) {before : List Char} {assembly : Assembly}
    (reached : registry.assembled before = .ok assembly) :
    (∀ rest, assemble registry (before ++ rest) =
      (assembly.acceptAll registry
        ((Scan.after registry.isOperator before).tokens registry.isOperator rest)).bind
          Assembly.finish) ∧
      Arranged before assembly.pending := by
  have leveled := leveled_of_assembled built.unreserved ranked reached
  refine ⟨?_, leveled.arranged (.acceptAll reached)⟩
  intro rest
  rw [registry.assemble_append, reached]
  rfl

theorem Registry.Built.arranged_of_assembled_catalog :
    ∃ assembly, Catalog.registry.assembled "2-max(-4,3*(1+2)^".toList = .ok assembly ∧
      assembly.pending.map Pending.precedence =
        [.exponential, .multiply, .openBracket, .function, .add] ∧
      (Assembly.brackets assembly.pending).map Prod.snd = [1] ∧
      Arranged "2-max(-4,3*(1+2)^".toList assembly.pending := by
  have reached : ∃ assembly,
      Catalog.registry.assembled "2-max(-4,3*(1+2)^".toList = .ok assembly ∧
        assembly.pending.map Pending.precedence =
          [.exponential, .multiply, .openBracket, .function, .add] ∧
        (Assembly.brackets assembly.pending).map Prod.snd = [1] := ⟨_, by rfl, by rfl, by rfl⟩
  obtain ⟨assembly, reached, shown, counted⟩ := reached
  obtain ⟨_, arranged⟩ := (Catalog.built .machine).arranged_of_assembled (Catalog.ranked .machine)
    reached
  exact ⟨assembly, reached, shown, counted, arranged⟩

end Calculator
