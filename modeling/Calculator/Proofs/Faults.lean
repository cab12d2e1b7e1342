import Calculator.Proofs.Evaluation

/-!
# Evaluation of any sequence of items

The check reads a program from the left with a stack of heights; the
evaluation reads it from the right and counts the rules that are running.
Both find the same programs well formed, whatever items they hold: a pull
reads exactly one complete tree that fits, or ends in a fault. A literal has
a height but runs no rule, so the limit of the check lies one above that of
the evaluation.
-/

namespace Calculator

/-- The rule pulls exactly this many operands and then has a value; it may ask what is left. -/
inductive Rule.Takes : Nat → Rule → Prop where
  | value (x : Float) : Takes 0 (.value x)
  | pull {count : Nat} {next : Float → Rule} (rest : ∀ x, Takes count (next x)) :
      Takes (count + 1) (.pull next)
  | remaining {count : Nat} {next : Nat → Rule} (rest : ∀ left, Takes count (next left)) :
      Takes count (.remaining next)

theorem Rule.Pulls.takes {count : Nat} {rule : Rule} (pulls : rule.Pulls count) :
    rule.Takes count := by
  induction pulls with
  | value x => exact .value x
  | pull _ ih => exact .pull ih

/-- An operator takes two operands, and a function as many as it declares, at least one. -/
def Item.TakesArity : Item → Prop
  | .literal _ => True
  | .operator definition => definition.rule.Takes 2
  | .function definition => 0 < definition.arity ∧ definition.rule.Takes definition.arity

theorem Item.TakesArity.rule {item : Item} (takes : item.TakesArity) :
    item.rule.Takes item.arity := by
  cases item with
  | literal value => exact .value value
  | operator definition => exact takes
  | function definition => exact takes.2

theorem Item.TakesArity.arity_pos {item : Item} (takes : item.TakesArity)
    (noLiteral : ∀ x, item ≠ .literal x) : 0 < item.arity := by
  cases item with
  | literal value => exact absurd rfl (noLiteral value)
  | operator definition => exact Nat.two_pos
  | function definition => exact takes.1

namespace Cursor

/-- The tree can be read with so many rules running, where a literal needs no further one. -/
def Fits (depth maxDepth : Nat) (tree : Tree) : Prop :=
  depth + tree.height ≤ maxDepth + 1

theorem fits_node_iff {depth maxDepth : Nat} {item : Item} {operands : List Tree}
    (below : depth < maxDepth) :
    Fits depth maxDepth (.node item operands) ↔
      ∀ tree ∈ operands, Fits (depth + 1) maxDepth tree := by
  unfold Fits
  rw [Tree.height]
  constructor
  · intro fits tree member
    have lower := Tree.height_lt_of_mem item member
    rw [Tree.height] at lower
    omega
  · intro each
    have highest : heightOver (Tree.heights operands) + depth ≤ maxDepth + 1 := by
      induction operands with
      | nil =>
          change 0 + 1 + depth ≤ maxDepth + 1
          omega
      | cons tree rest ih =>
          have first := each tree (List.mem_cons_self ..)
          have others := ih fun other member => each other (List.mem_cons_of_mem _ member)
          simp only [heightOver, Tree.heights, List.foldr_cons] at others ⊢
          omega
    omega

/-! ## What a read can end in -/

/--
How the read of some trees from given items ends: it has taken their items and stands before the
rest, or it has met the end of the items or the limit.
-/
inductive Reading (depth maxDepth : Nat) (items : List Item) (count : Nat) :
    Except PullFault Float × Cursor → Prop where
  | whole (forest : List Tree) {value : Float} {below : List Item} (number : forest.length = count)
      (complete : Tree.AllComplete forest) (fits : ∀ tree ∈ forest, Fits depth maxDepth tree)
      (order : (Tree.itemsOf forest).reverse ++ below = items) :
      Reading depth maxDepth items count (.ok value, before below depth maxDepth)
  | exhausted {moved : Cursor} : Reading depth maxDepth items count (.error .exhausted, moved)
  | tooDeep {moved : Cursor} :
      Reading depth maxDepth items count (.error (.tooDeep maxDepth), moved)

/-- Every read of one tree from such items ends as it must. -/
def ReadsTree (pull : Cursor → Except PullFault Float × Cursor) (depth maxDepth : Nat) : Prop :=
  ∀ items : List Item, (∀ item ∈ items, item.TakesArity) →
    Reading depth maxDepth items 1 (pull (before items depth maxDepth))

theorem reading_run {pull : Cursor → Except PullFault Float × Cursor} {depth maxDepth count : Nat}
    {rule : Rule} (reads : ReadsTree pull depth maxDepth) (takes : rule.Takes count)
    {items : List Item} (each : ∀ item ∈ items, item.TakesArity) :
    Reading depth maxDepth items count (rule.run pull (before items depth maxDepth)) := by
  induction takes generalizing items with
  | value x => exact .whole [] rfl trivial (by simp) rfl
  | remaining _ ih => exact ih _ each
  | @pull count next _ ih =>
      have first := reads items each
      rw [Rule.run]
      revert first
      generalize pull (before items depth maxDepth) = outcome
      intro first
      cases first with
      | exhausted => exact .exhausted
      | tooDeep => exact .tooDeep
      | @whole forest value below number complete fits order =>
          obtain ⟨last, rfl⟩ := List.length_eq_one_iff.1 number
          have left : ∀ item ∈ below, item.TakesArity := fun item member =>
            each item (order ▸ List.mem_append_right _ member)
          have later := ih value left
          dsimp only
          revert later
          generalize (next value).run pull (before below depth maxDepth) = ending
          intro later
          cases later with
          | exhausted => exact .exhausted
          | tooDeep => exact .tooDeep
          | @whole earlier _ under number' complete' fits' order' =>
              -- The tree read first stands last among the operands.
              refine .whole (earlier ++ [last]) ?_ ?_ ?_ ?_
              · rw [List.length_append, number']
                rfl
              · exact Tree.allComplete_append.2 ⟨complete', complete⟩
              · intro tree member
                rcases List.mem_append.1 member with old | new
                · exact fits' tree old
                · exact fits tree new
              · rw [← order, ← order', Tree.itemsOf_append, List.reverse_append, List.append_assoc]

/-- The limit is a natural number like the count of the running rules. -/
theorem runItem_eq {pull : Cursor → Except PullFault Float × Cursor} {item : Item}
    (noLiteral : ∀ x, item ≠ .literal x) (rest : List Item) (depth maxDepth : Nat) :
    runItem pull (before rest depth maxDepth) item =
      if maxDepth ≤ depth then (.error (.tooDeep maxDepth), before rest depth maxDepth)
      else
        let (outcome, moved) := item.rule.run pull (before rest (depth + 1) maxDepth)
        (outcome, { moved with depth := depth }) := by
  have limit : (before rest depth maxDepth).maxDepth ≤ (before rest depth maxDepth).depth ↔
      maxDepth ≤ depth := Int.ofNat_le
  rw [runItem_of_not_literal noLiteral]
  simp only [limit]
  rfl

/-- With room for every rule that may be running, a pull reads one tree or ends in a fault. -/
theorem readsTree_pull {stack depth maxDepth : Nat} (shallow : depth ≤ maxDepth)
    (room : maxDepth + 1 ≤ depth + stack) : ReadsTree (pull stack) depth maxDepth := by
  induction stack generalizing depth with
  | zero => omega
  | succ stack ih =>
      intro items each
      cases items with
      | nil => exact .exhausted
      | cons item rest =>
          change Reading depth maxDepth (item :: rest) 1
            (runItem (pull stack) (before rest depth maxDepth) item)
          by_cases literal : ∃ x, item = .literal x
          · obtain ⟨x, rfl⟩ := literal
            refine .whole [.node (.literal x) []] rfl ⟨⟨rfl, trivial⟩, trivial⟩ ?_ rfl
            intro tree member
            cases List.mem_singleton.1 member
            exact Nat.succ_le_succ shallow
          · rw [runItem_eq fun x same => literal ⟨x, same⟩]
            split
            · exact .tooDeep
            · rename_i below
              have takes := (each item (List.mem_cons_self ..)).rule
              have deeper : ReadsTree (pull stack) (depth + 1) maxDepth := ih (by omega) (by omega)
              have operands := reading_run deeper takes fun other member =>
                each other (List.mem_cons_of_mem _ member)
              revert operands
              generalize item.rule.run (pull stack) (before rest (depth + 1) maxDepth) = ending
              intro operands
              cases operands with
              | exhausted => exact .exhausted
              | tooDeep => exact .tooDeep
              | @whole forest value under number complete fits order =>
                  refine .whole [.node item forest] rfl
                    ⟨⟨number, complete⟩, trivial⟩ ?_ ?_
                  · intro tree member
                    cases List.mem_singleton.1 member
                    exact (fits_node_iff (Nat.lt_of_not_le below)).2 fits
                  · rw [← order]
                    simp [Tree.itemsOf, Tree.items, before]

/-! ## A tree that fits is read -/

/-- A pull reads these trees wherever they lie next. -/
def FindsAll (pull : Cursor → Except PullFault Float × Cursor) (depth maxDepth : Nat)
    (forest : List Tree) : Prop :=
  ∀ tree ∈ forest, ∀ below : List Item, ∃ value,
    pull (before (tree.items.reverse ++ below) depth maxDepth) =
      (.ok value, before below depth maxDepth)

theorem finds_run {pull : Cursor → Except PullFault Float × Cursor} {depth maxDepth count : Nat}
    {rule : Rule} (takes : rule.Takes count) {operands : List Tree}
    (number : operands.length = count) (finds : FindsAll pull depth maxDepth operands)
    (below : List Item) :
    ∃ value, rule.run pull (before ((Tree.itemsOf operands).reverse ++ below) depth maxDepth) =
      (.ok value, before below depth maxDepth) := by
  induction takes generalizing operands with
  | value x =>
      cases List.eq_nil_of_length_eq_zero number
      exact ⟨x, rfl⟩
  | remaining _ ih => exact ih _ number finds
  | @pull count next _ ih =>
      have some : operands ≠ [] := fun none => by simp [none] at number
      obtain ⟨earlier, last, rfl⟩ : ∃ earlier last, operands = earlier ++ [last] :=
        ⟨_, _, (List.dropLast_concat_getLast some).symm⟩
      obtain ⟨x, pulled⟩ := finds last (by simp) ((Tree.itemsOf earlier).reverse ++ below)
      rw [Tree.reverse_itemsOf_concat, List.append_assoc, Rule.run, pulled]
      refine ih x ?_ fun tree member => finds tree (List.mem_append_left _ member)
      rw [List.length_append] at number
      exact Nat.succ.inj number

theorem finds_pull {stack depth maxDepth : Nat} {tree : Tree} (complete : tree.Complete)
    (each : ∀ item ∈ tree.items, item.TakesArity) (fits : Fits depth maxDepth tree)
    (room : maxDepth + 1 ≤ depth + stack) : FindsAll (pull stack) depth maxDepth [tree] := by
  induction stack generalizing depth tree with
  | zero =>
      have positive := tree.height_pos
      unfold Fits at fits
      omega
  | succ stack ih =>
      intro other member below
      cases List.mem_singleton.1 member
      cases tree with
      | node item operands =>
          have order : (Tree.node item operands).items.reverse ++ below =
              item :: ((Tree.itemsOf operands).reverse ++ below) := by
            simp [Tree.items]
          rw [order]
          change ∃ value, runItem (pull stack) (before _ depth maxDepth) item = _
          by_cases literal : ∃ x, item = .literal x
          · obtain ⟨x, rfl⟩ := literal
            cases List.eq_nil_of_length_eq_zero complete.1
            exact ⟨x, rfl⟩
          · have takes := each item (by simp [Tree.items])
            have noLiteral : ∀ x, item ≠ .literal x := fun x same => literal ⟨x, same⟩
            -- The item has an operand, so its own height is two or more.
            have positive : operands ≠ [] := fun none => by
              have some := takes.arity_pos noLiteral
              rw [← complete.1, none] at some
              exact absurd some (Nat.lt_irrefl 0)
            obtain ⟨first, member⟩ := List.exists_mem_of_ne_nil _ positive
            have lower := Tree.height_lt_of_mem item member
            have leaf := first.height_pos
            have shallow : depth < maxDepth := by
              unfold Fits at fits
              omega
            have finds : FindsAll (pull stack) (depth + 1) maxDepth operands := by
              intro operand member
              refine ih (Tree.allComplete_iff.1 complete.2 operand member) ?_ ?_ ?_ operand
                (List.mem_singleton.2 rfl)
              · intro other inTree
                exact each other (List.mem_append_left _ (Tree.mem_itemsOf member inTree))
              · exact (fits_node_iff shallow).1 fits operand member
              · omega
            obtain ⟨value, runs⟩ := finds_run takes.rule complete.1 finds below
            refine ⟨value, ?_⟩
            rw [runItem_eq noLiteral, if_neg (Nat.not_le.2 shallow), runs]
            rfl

end Cursor

/-! ## The two limits -/

theorem Program.evaluationDepth_of_pos {items : List Item} {source : String} {maxDepth : Nat}
    (positive : 1 ≤ maxDepth) : evaluationDepth ⟨items, source, maxDepth⟩ = maxDepth :=
  if_neg (by show (maxDepth : Int) ≠ 0; omega)

/-- The last items that form a well-formed program are read, and what stands before is left over. -/
theorem Program.evaluateWithin_cases {items : List Item}
    (takes : ∀ item ∈ items, item.TakesArity) {maxDepth stack : Nat} (positive : 1 ≤ maxDepth)
    (room : maxDepth + 1 ≤ stack) (source : String) :
    let outcome := evaluateWithin stack ⟨items, source, maxDepth⟩
    (∃ value, outcome = .ok value ∧ checkOperands items (maxDepth + 1) = .ok ()) ∨
      outcome = .error .exhausted ∨ outcome = .error (.tooDeep maxDepth) ∨
      ∃ earlier later, items = earlier ++ later ∧ earlier ≠ [] ∧
        checkOperands later (maxDepth + 1) = .ok () ∧
        outcome = .error (.leftOver earlier.length source) := by
  have reading := Cursor.readsTree_pull (Nat.zero_le maxDepth) (by omega : maxDepth + 1 ≤ 0 + stack)
    items.reverse (by simpa using takes)
  simp only [evaluateWithin, evaluationDepth_of_pos positive, Cursor.ofItems]
  unfold Cursor.before at reading
  revert reading
  generalize Cursor.pull stack ⟨items.reverse, 0, maxDepth⟩ = ending
  intro reading
  cases reading with
  | exhausted => exact .inr (.inl rfl)
  | tooDeep => exact .inr (.inr (.inl rfl))
  | @whole forest value below number complete fits order =>
      obtain ⟨tree, rfl⟩ := List.length_eq_one_iff.1 number
      have split : items = below.reverse ++ tree.items := by
        have turned := congrArg List.reverse order
        simpa [Tree.itemsOf] using turned.symm
      have height := fits tree (List.mem_singleton.2 rfl)
      unfold Cursor.Fits at height
      have formed : checkOperands tree.items (maxDepth + 1) = .ok () :=
        checkOperands_eq_ok_iff.2 ⟨tree, complete.1, by omega, rfl⟩
      cases below with
      | nil => exact .inl ⟨value, rfl, by simpa [split] using formed⟩
      | cons item rest =>
          refine .inr (.inr (.inr ⟨(item :: rest).reverse, tree.items, split, by simp, formed, ?_⟩))
          rw [List.length_reverse]
          rfl

/-- A program that passes the operand check one level above the limit has a value. -/
theorem Program.exists_value_of_checkOperands {items : List Item}
    (takes : ∀ item ∈ items, item.TakesArity) {maxDepth stack : Nat} (positive : 1 ≤ maxDepth)
    (room : maxDepth + 1 ≤ stack) (source : String)
    (accepted : checkOperands items (maxDepth + 1) = .ok ()) :
    ∃ value, evaluateWithin stack ⟨items, source, maxDepth⟩ = .ok value := by
  obtain ⟨tree, complete, height, rfl⟩ := checkOperands_eq_ok_iff.1 accepted
  have fits : Cursor.Fits 0 maxDepth tree := by
    unfold Cursor.Fits
    omega
  obtain ⟨value, pulled⟩ := Cursor.finds_pull complete takes fits
    (by omega : maxDepth + 1 ≤ 0 + stack) tree (List.mem_singleton.2 rfl) []
  refine ⟨value, ?_⟩
  rw [List.append_nil] at pulled
  unfold Cursor.before at pulled
  simp only [evaluateWithin, evaluationDepth_of_pos positive, Cursor.ofItems]
  rw [pulled]
  rfl

/--
Evaluation and operand check agree on every sequence of items whose rules take what they declare,
with the limit of the check one above that of the program. What has no value ends in a fault of
the evaluation, and zero stands for the default limit.
-/
theorem Program.exists_value_iff_checkOperands {items : List Item}
    (takes : ∀ item ∈ items, item.TakesArity) {maxDepth : Int} (positive : 1 ≤ maxDepth)
    {stack : Nat} (room : maxDepth + 1 ≤ stack) (source : String) :
    let outcome := evaluateWithin stack ⟨items, source, maxDepth⟩
    ((∃ value, outcome = .ok value) ↔ checkOperands items (maxDepth + 1) = .ok ()) ∧
      (checkOperands items (maxDepth + 1) ≠ .ok () →
        outcome = .error .exhausted ∨ outcome = .error (.tooDeep maxDepth) ∨
        ∃ earlier later, items = earlier ++ later ∧ earlier ≠ [] ∧
          checkOperands later (maxDepth + 1) = .ok () ∧
          outcome = .error (.leftOver earlier.length source)) ∧
      ∀ anyStack : Nat,
        evaluateWithin anyStack ⟨items, source, 0⟩ =
          evaluateWithin anyStack ⟨items, source, 200⟩ := by
  obtain ⟨depth, rfl⟩ := Int.eq_ofNat_of_zero_le (Int.le_trans (by decide) positive)
  have one : 1 ≤ depth := by omega
  have enough : depth + 1 ≤ stack := by omega
  have ends := evaluateWithin_cases takes one enough source
  refine ⟨⟨?_, exists_value_of_checkOperands takes one enough source⟩, ?_, fun _ => rfl⟩
  · rintro ⟨value, evaluated⟩
    rcases ends with ⟨_, _, accepted⟩ | failed | failed | ⟨_, _, _, _, _, failed⟩
    · exact accepted
    all_goals exact absurd (evaluated.symm.trans failed) (by simp)
  · intro refused
    rcases ends with ⟨_, _, accepted⟩ | failed
    · exact absurd accepted refused
    · exact failed

/-- A difference whose rule also asks what is left. -/
def Item.watchedDifference : Item :=
  .operator ⟨'-', .add, .pull fun right => .remaining fun left =>
    .pull fun first => .value (first - right + left.toFloat), ""⟩

theorem Item.takesArity_watchedDifference : watchedDifference.TakesArity :=
  .pull fun _ => .remaining fun _ => .pull fun _ => .value _

/-- One rule may run: a difference has a value, a difference of a difference has none. -/
theorem Program.exists_value_iff_checkOperands_difference :
    let single := [.literal 1, .literal 2, Item.watchedDifference]
    let double := [.literal 1, .literal 2, Item.watchedDifference, .literal 3,
      Item.watchedDifference]
    (∃ value, evaluateWithin 2 ⟨single, "1-2", 1⟩ = .ok value) ∧
      ¬ ∃ value, evaluateWithin 2 ⟨double, "1-2-3", 1⟩ = .ok value := by
  have single : ∀ item ∈ [.literal 1, .literal 2, Item.watchedDifference], item.TakesArity := by
    simpa [Item.TakesArity] using Item.takesArity_watchedDifference
  have double : ∀ item ∈ [.literal 1, .literal 2, Item.watchedDifference, .literal 3,
      Item.watchedDifference], item.TakesArity := by
    simpa [Item.TakesArity] using Item.takesArity_watchedDifference
  have room : (1 : Int) + 1 ≤ (2 : Nat) := by decide
  refine ⟨(exists_value_iff_checkOperands single (by decide) room "1-2").1.2 rfl, ?_⟩
  intro evaluated
  have accepted := (exists_value_iff_checkOperands double (by decide) room "1-2-3").1.1 evaluated
  have refused : checkOperands [.literal 1, .literal 2, Item.watchedDifference, .literal 3,
      Item.watchedDifference] (1 + 1) = .error (.malformed "") := rfl
  cases accepted.symm.trans refused

end Calculator
