import Calculator.Proofs.Evaluation

/-!
# Pulls in a row

A meter goes along with a cursor: it counts the items that are read, and
counts the running rules up before a rule and down after it. The cursor
restores the depth instead; both come to the same, because every pull leaves
the count where it found it, however it ends. So whatever is no longer left
has been read, and pulls in a row read a row of trees from the last to the
first.
-/

namespace Calculator

namespace Rule

variable {σ : Type}

/-- Runs a rule over any state that operands can be pulled from. -/
def runOver (remaining : σ → Nat) (pull : σ → Except PullFault Float × σ) :
    Rule → σ → Except PullFault Float × σ
  | .value x, state => (.ok x, state)
  | .fault cause, state => (.error (.arithmetic cause), state)
  | .pull next, state =>
      match pull state with
      | (.ok x, moved) => (next x).runOver remaining pull moved
      | (.error failure, moved) => (.error failure, moved)
  | .remaining next, state => (next (remaining state)).runOver remaining pull state

/-- What every pull keeps is kept by a run. -/
theorem runOver_induction {motive : σ → σ → Prop} (refl : ∀ state, motive state state)
    (trans : ∀ {first second third}, motive first second → motive second third →
      motive first third)
    (remaining : σ → Nat) {pull : σ → Except PullFault Float × σ}
    (step : ∀ state, motive state (pull state).2) (rule : Rule) (state : σ) :
    motive state (rule.runOver remaining pull state).2 := by
  induction rule generalizing state with
  | value x => exact refl state
  | fault cause => exact refl state
  | pull next ih =>
      have pulled := step state
      rw [runOver]
      revert pulled
      generalize pull state = outcome
      intro pulled
      obtain ⟨result, moved⟩ := outcome
      cases result with
      | error failure => exact pulled
      | ok x => exact trans pulled (ih x moved)
  | remaining next ih => exact ih (remaining state) state

/-- A run over states that stand for cursors is the run over the cursors. -/
theorem runOver_project (project : σ → Cursor) {pull : σ → Except PullFault Float × σ}
    {pullCursor : Cursor → Except PullFault Float × Cursor}
    (step : ∀ state, (pull state).map id project = pullCursor (project state)) (rule : Rule)
    (state : σ) :
    (rule.runOver (fun state => (project state).remaining) pull state).map id project =
      rule.run pullCursor (project state) := by
  induction rule generalizing state with
  | value x => rfl
  | fault cause => rfl
  | pull next ih =>
      rw [runOver, run, ← step state]
      generalize pull state = outcome
      obtain ⟨result, moved⟩ := outcome
      cases result with
      | error failure => rfl
      | ok x => exact ih x moved
  | remaining next ih => exact ih _ state

end Rule

/-- A cursor with the number of items it has read. -/
structure Meter where
  cursor : Cursor
  read : Nat

namespace Meter

def ofItems (items : List Item) (maxDepth : Int) : Meter :=
  ⟨.ofItems items maxDepth, 0⟩

/-- Reads an item and stands before the rest. -/
def advance (meter : Meter) (rest : List Item) : Meter :=
  ⟨{ meter.cursor with rest := rest }, meter.read + 1⟩

def enter (meter : Meter) : Meter :=
  { meter with cursor := { meter.cursor with depth := meter.cursor.depth + 1 } }

def leave (meter : Meter) : Meter :=
  { meter with cursor := { meter.cursor with depth := meter.cursor.depth - 1 } }

def runItem (pull : Meter → Except PullFault Float × Meter) (meter : Meter) (item : Item) :
    Except PullFault Float × Meter :=
  match item with
  | .literal value => (.ok value, meter)
  | item =>
      if meter.cursor.maxDepth ≤ meter.cursor.depth then
        (.error (.tooDeep meter.cursor.maxDepth), meter)
      else
        let (outcome, moved) :=
          item.rule.runOver (fun state => state.cursor.remaining) pull meter.enter
        (outcome, moved.leave)

def pull : (stack : Nat) → Meter → Except PullFault Float × Meter
  | 0, meter => (.error .stackOverflow, meter)
  | stack + 1, meter =>
      match meter.cursor.rest with
      | [] => (.error .exhausted, meter)
      | item :: rest => runItem (pull stack) (meter.advance rest) item

/-- The meter after so many pulls in a row, whatever each of them ends in. -/
def afterPulls (stack : Nat) (meter : Meter) : Nat → Meter
  | 0 => meter
  | count + 1 => ((meter.afterPulls stack count).pull stack).2

/-! ## What every pull keeps -/

/-- The rules that ran have ended, and what is no longer left has been read. -/
structure Balanced (before after : Meter) : Prop where
  depth : after.cursor.depth = before.cursor.depth
  left : after.cursor.remaining + after.read = before.cursor.remaining + before.read
  grows : before.read ≤ after.read

namespace Balanced

theorem refl (meter : Meter) : Balanced meter meter :=
  ⟨rfl, rfl, Nat.le_refl _⟩

theorem trans {first second third : Meter} (earlier : Balanced first second)
    (later : Balanced second third) : Balanced first third :=
  ⟨later.depth.trans earlier.depth, later.left.trans earlier.left,
    Nat.le_trans earlier.grows later.grows⟩

theorem leave {before after : Meter} (inside : Balanced before.enter after) :
    Balanced before after.leave := by
  refine ⟨?_, inside.left, inside.grows⟩
  have deeper : after.cursor.depth = before.cursor.depth + 1 := inside.depth
  change after.cursor.depth - 1 = before.cursor.depth
  omega

end Balanced

theorem balanced_runItem {pull : Meter → Except PullFault Float × Meter}
    (step : ∀ meter, Balanced meter (pull meter).2) (meter : Meter) (item : Item) :
    Balanced meter (runItem pull meter item).2 := by
  have ran (rule : Rule) := rule.runOver_induction (motive := Balanced) .refl .trans
    (fun state => state.cursor.remaining) step meter.enter
  unfold runItem
  split
  next => exact .refl meter
  next =>
    split
    next => exact .refl meter
    next => exact (ran _).leave

/-- An item that is read is one more that has been read and one less that is left. -/
theorem advance_left {meter : Meter} {item : Item} {rest : List Item}
    (next : meter.cursor.rest = item :: rest) :
    (meter.advance rest).cursor.remaining + (meter.advance rest).read =
      meter.cursor.remaining + meter.read := by
  have length : meter.cursor.remaining = rest.length + 1 := by
    rw [Cursor.remaining, next, List.length_cons]
  change rest.length + (meter.read + 1) = _
  omega

theorem balanced_pull (stack : Nat) (meter : Meter) : Balanced meter (meter.pull stack).2 := by
  induction stack generalizing meter with
  | zero => exact .refl meter
  | succ stack ih =>
      rw [pull]
      split
      next => exact .refl meter
      next item rest next =>
        have ran := balanced_runItem ih (meter.advance rest) item
        refine ⟨ran.depth, ran.left.trans (advance_left next), ?_⟩
        exact Nat.le_trans (Nat.le_succ _) ran.grows

theorem lt_read_pull {stack : Nat} (room : 1 ≤ stack) {meter : Meter}
    (some : meter.cursor.remaining ≠ 0) : meter.read < (meter.pull stack).2.read := by
  obtain ⟨stack, rfl⟩ := Nat.exists_eq_add_of_le' room
  rw [pull]
  split
  next nothing =>
    rw [Cursor.remaining, nothing] at some
    exact absurd rfl some
  next item rest _ => exact (balanced_runItem (balanced_pull stack) (meter.advance rest) item).grows

/-! ## The meter goes along with the cursor -/

theorem runItem_cursor {pull : Meter → Except PullFault Float × Meter}
    {pullCursor : Cursor → Except PullFault Float × Cursor}
    (step : ∀ meter, (pull meter).map id Meter.cursor = pullCursor meter.cursor)
    (balanced : ∀ meter, Balanced meter (pull meter).2) (meter : Meter) (item : Item) :
    (runItem pull meter item).map id Meter.cursor =
      Cursor.runItem pullCursor meter.cursor item := by
  have ran (rule : Rule) :
      let outcome := rule.runOver (fun state => state.cursor.remaining) pull meter.enter
      (outcome.1, outcome.2.leave.cursor) =
        ((rule.run pullCursor meter.enter.cursor).1,
          { (rule.run pullCursor meter.enter.cursor).2 with depth := meter.cursor.depth }) := by
    have restored := (rule.runOver_induction (motive := Balanced) .refl .trans
      (fun state => state.cursor.remaining) balanced meter.enter).leave.depth
    rw [← rule.runOver_project Meter.cursor step meter.enter, ← restored]
    rfl
  cases item with
  | literal value => rfl
  | operator definition =>
      unfold runItem Cursor.runItem
      dsimp only
      split
      next => rfl
      next => exact ran _
  | function definition =>
      unfold runItem Cursor.runItem
      dsimp only
      split
      next => rfl
      next => exact ran _

theorem pull_cursor (stack : Nat) (meter : Meter) :
    (meter.pull stack).map id Meter.cursor = meter.cursor.pull stack := by
  induction stack generalizing meter with
  | zero => rfl
  | succ stack ih =>
      rw [pull, Cursor.pull]
      cases next : meter.cursor.rest with
      | nil => rfl
      | cons item rest => exact runItem_cursor ih (balanced_pull stack) (meter.advance rest) item

theorem pull_of_cursor {stack : Nat} {meter : Meter} {outcome : Except PullFault Float}
    {moved : Cursor} (pulled : meter.cursor.pull stack = (outcome, moved)) :
    (meter.pull stack).1 = outcome ∧ (meter.pull stack).2.cursor = moved := by
  have along := (pull_cursor stack meter).trans pulled
  exact ⟨congrArg Prod.fst along, congrArg Prod.snd along⟩

theorem pull_of_remaining_eq_zero {stack : Nat} (room : 1 ≤ stack) {meter : Meter}
    (nothing : meter.cursor.remaining = 0) : meter.pull stack = (.error .exhausted, meter) := by
  obtain ⟨stack, rfl⟩ := Nat.exists_eq_add_of_le' room
  rw [pull, List.eq_nil_of_length_eq_zero nothing]

/-! ## A row of trees -/

section

variable {maxDepth : Int} {stack : Nat} {forest : List Tree}

/-- The trees can be read: every item finds its operands, and the limits allow for them. -/
structure Readable (maxDepth : Int) (stack : Nat) (forest : List Tree) : Prop where
  complete : Tree.AllComplete forest
  pulls : ∀ item ∈ Tree.itemsOf forest, item.PullsArity
  fits : ∀ tree ∈ forest, (tree.nesting : Int) ≤ maxDepth
  room : ∀ tree ∈ forest, tree.height ≤ stack

theorem Readable.reaches (readable : Readable maxDepth stack forest) {tree : Tree}
    (member : tree ∈ forest) : Cursor.Reaches (Cursor.pull stack) 0 maxDepth tree := by
  refine Cursor.pull_reaches (Tree.allComplete_iff.1 readable.complete tree member) ?_
    (readable.room tree member) ?_
  · intro item inTree
    exact readable.pulls item (Tree.mem_itemsOf member inTree)
  · have fits := readable.fits tree member
    omega

/-- The last trees of a row have been read after as many pulls. -/
theorem Readable.afterPulls (readable : Readable maxDepth stack forest)
    {earlier later : List Tree} (split : forest = earlier ++ later) :
    ((ofItems (Tree.itemsOf forest) maxDepth).afterPulls stack later.length).cursor =
      .before (Tree.itemsOf earlier).reverse 0 maxDepth := by
  induction later generalizing earlier with
  | nil =>
      rw [split, List.append_nil]
      rfl
  | cons tree later ih =>
      have reached := ih (by simp [split] : forest = (earlier ++ [tree]) ++ later)
      obtain ⟨value, _, pulled⟩ := readable.reaches (by simp [split] : tree ∈ forest)
      rw [Tree.reverse_itemsOf_concat] at reached
      have here := pulled (Tree.itemsOf earlier).reverse
      rw [← reached] at here
      exact (pull_of_cursor here).2

theorem Readable.pull (readable : Readable maxDepth stack forest) {earlier later : List Tree}
    {tree : Tree} (split : forest = earlier ++ tree :: later) :
    let before := (ofItems (Tree.itemsOf forest) maxDepth).afterPulls stack later.length
    let after := (before.pull stack).2
    ∃ value, tree.value? = some value ∧ (before.pull stack).1 = .ok value ∧
      before.cursor.rest = tree.items.reverse ++ after.cursor.rest ∧
      after.read = before.read + tree.items.length := by
  intro before after
  have reached : before.cursor = .before (Tree.itemsOf (earlier ++ [tree])).reverse 0 maxDepth :=
    readable.afterPulls (by simp [split])
  rw [Tree.reverse_itemsOf_concat] at reached
  obtain ⟨value, hasValue, pulled⟩ := readable.reaches (by simp [split] : tree ∈ forest)
  have here := pulled (Tree.itemsOf earlier).reverse
  rw [← reached] at here
  obtain ⟨outcome, moved⟩ := pull_of_cursor here
  have rest : before.cursor.rest = tree.items.reverse ++ after.cursor.rest := by
    rw [reached, moved]
    rfl
  have left : after.cursor.remaining + after.read = before.cursor.remaining + before.read :=
    (balanced_pull stack before).left
  refine ⟨value, hasValue, outcome, rest, ?_⟩
  rw [Cursor.remaining, Cursor.remaining, rest, List.length_append, List.length_reverse] at left
  omega

/-- When all trees have been read nothing is left, and every further pull finds this. -/
theorem Readable.remaining_eq_zero (readable : Readable maxDepth stack forest) (room : 1 ≤ stack)
    {count : Nat} (all : forest.length ≤ count) :
    ((ofItems (Tree.itemsOf forest) maxDepth).afterPulls stack count).cursor.remaining = 0 := by
  obtain ⟨more, rfl⟩ := Nat.exists_eq_add_of_le all
  induction more with
  | zero =>
      have reached := readable.afterPulls (List.nil_append forest).symm
      rw [Nat.add_zero, reached]
      rfl
  | succ more ih =>
      have nothing := ih (Nat.le_add_right _ _)
      rw [← Nat.add_assoc, Meter.afterPulls, pull_of_remaining_eq_zero room nothing]
      exact nothing

end

/--
A pull leaves the depth of its cursor as it was, and what is left goes down by the number of items
that it has read: by one at least, unless nothing was left, which is a fault. This holds of every
pull in a row on one cursor, whatever the items are and however the pulls before it have ended. When
the items are those of a row of trees that the limits allow for, the first pulls give the values of
the trees from the last to the first, each for the items of its tree, and further ones are faults.
-/
theorem pulls_in_a_row (items : List Item) (maxDepth : Int) {stack : Nat} (room : 1 ≤ stack) :
    (∀ count,
      let before := (ofItems items maxDepth).afterPulls stack count
      let after := (before.pull stack).2
      ((before.pull stack).1, after.cursor) = before.cursor.pull stack ∧
        after.cursor.depth = before.cursor.depth ∧ before.read ≤ after.read ∧
        (after.cursor.remaining : Int) = before.cursor.remaining - (after.read - before.read) ∧
        (before.cursor.remaining ≠ 0 → before.read + 1 ≤ after.read) ∧
        (before.cursor.remaining = 0 → (before.pull stack).1 = .error .exhausted)) ∧
    ∀ forest : List Tree, items = Tree.itemsOf forest → Tree.AllComplete forest →
      (∀ item ∈ items, item.PullsArity) →
      (∀ tree ∈ forest, (tree.nesting : Int) ≤ maxDepth ∧ tree.height ≤ stack) →
      (∀ earlier tree later, forest = earlier ++ tree :: later →
        let before := (ofItems items maxDepth).afterPulls stack later.length
        let after := (before.pull stack).2
        ∃ value, tree.value? = some value ∧ (before.pull stack).1 = .ok value ∧
          before.cursor.rest = tree.items.reverse ++ after.cursor.rest ∧
          after.read = before.read + tree.items.length) ∧
      ∀ count, forest.length ≤ count →
        let before := (ofItems items maxDepth).afterPulls stack count
        before.cursor.remaining = 0 ∧ before.pull stack = (.error .exhausted, before) := by
  constructor
  · intro count before after
    have balanced : Balanced before after := balanced_pull stack before
    have left := balanced.left
    refine ⟨pull_cursor stack before, balanced.depth, balanced.grows, by omega,
      lt_read_pull room, ?_⟩
    intro nothing
    rw [pull_of_remaining_eq_zero room nothing]
  · rintro forest rfl complete pulls limits
    have readable : Readable maxDepth stack forest :=
      ⟨complete, pulls, fun tree member => (limits tree member).1,
        fun tree member => (limits tree member).2⟩
    refine ⟨fun earlier tree later split => readable.pull split, ?_⟩
    intro count all before
    have nothing := readable.remaining_eq_zero room all
    exact ⟨nothing, pull_of_remaining_eq_zero room nothing⟩

/-- A number and a difference in a row. -/
def row : List Tree :=
  [.node (.literal 1.5) [],
    .node (.operator ⟨'-', .add, .binary fun x y => .ok (x - y), "x - y"⟩)
      [.node (.literal 5.5) [], .node (.literal 2.5) []]]

theorem complete_row : Tree.AllComplete row :=
  ⟨⟨rfl, trivial⟩, ⟨rfl, ⟨rfl, trivial⟩, ⟨rfl, trivial⟩, trivial⟩, trivial⟩

theorem pullsArity_row : ∀ item ∈ Tree.itemsOf row, item.PullsArity := by
  intro item member
  change item ∈ [_, _, _, _] at member
  simp only [List.mem_cons, List.not_mem_nil, or_false] at member
  rcases member with rfl | rfl | rfl | rfl
  · exact .value _
  · exact .value _
  · exact .value _
  · exact .pull fun _ => .pull fun _ => .value _

/-- Three pulls on a row of two trees, of which the last one finds nothing. -/
theorem pulls_in_a_row_row :
    let start := ofItems (Tree.itemsOf row) 1
    (start.pull 2).1 = .ok (5.5 - 2.5) ∧ (start.pull 2).2.read = 3 ∧
      ((start.afterPulls 2 1).pull 2).1 = .ok 1.5 ∧
      ((start.afterPulls 2 2).pull 2).1 = .error .exhausted := by
  obtain ⟨_, trees⟩ := pulls_in_a_row (Tree.itemsOf row) 1 (by decide : 1 ≤ 2)
  have limits : ∀ tree ∈ row, (tree.nesting : Int) ≤ 1 ∧ tree.height ≤ 2 := by
    intro tree member
    simp only [row, List.mem_cons, List.not_mem_nil, or_false] at member
    rcases member with rfl | rfl
    · exact ⟨by decide, by decide⟩
    · exact ⟨by decide, by decide⟩
  obtain ⟨each, none⟩ := trees row rfl complete_row pullsArity_row limits
  obtain ⟨difference, found, first, _, length⟩ := each [_] _ [] rfl
  obtain ⟨number, foundNumber, second, _⟩ := each [] _ [_] rfl
  obtain ⟨_, third⟩ := none 2 (Nat.le_refl 2)
  cases found
  cases foundNumber
  exact ⟨first, length, second, congrArg Prod.fst third⟩

end Meter

end Calculator
