import Calculator.Evaluation
import Calculator.Proofs.Postorder
import Calculator.Proofs.Stack

/-!
# Evaluation of compiled programs

A cursor over the postfix order of a complete tree reads the tree from its
root: every pull takes the items of one operand and nothing else. With rules
that pull as many operands as their definitions take, a compiled program has
the value of its tree. No more pulls are active at once than the tree is
high, so the limit of the compilation bounds both the depth and the stack.
-/

namespace Calculator

/-- The rule of an item pulls as many operands as the item takes, and then has a value. -/
def Item.PullsArity (item : Item) : Prop :=
  item.rule.Pulls item.arity

/-- Operators pull two operands, and functions as many as they take. -/
structure Registry.PullsArity (registry : Registry) : Prop where
  operator : ∀ {symbol definition},
    registry.operators.find? symbol = some definition → definition.rule.Pulls 2
  function : ∀ {name definition},
    registry.functions.find? name = some definition → definition.rule.Pulls definition.arity

theorem Registry.PullsArity.ensures {registry : Registry} (pulls : registry.PullsArity) :
    registry.Ensures Item.PullsArity where
  literal value := .value value
  operator found := pulls.operator found
  function found := pulls.function found

namespace Tree

theorem height_pos (tree : Tree) : 0 < tree.height := by
  cases tree with
  | node item operands => exact Nat.succ_pos _

theorem height_lt_of_mem (item : Item) {operands : List Tree} {tree : Tree}
    (member : tree ∈ operands) : tree.height < (node item operands).height := by
  have inHeights : tree.height ∈ heights operands := by
    induction member with
    | head rest => exact List.mem_cons_self ..
    | tail first _ ih => exact List.mem_cons_of_mem _ ih
  exact lt_heightOver inHeights

theorem level_of_not_literal {item : Item} (noLiteral : ∀ x, item ≠ .literal x) :
    item.level = 1 := by
  cases item with
  | literal x => exact absurd rfl (noLiteral x)
  | operator definition => rfl
  | function definition => rfl

theorem nesting_add_level_le {operands : List Tree} {tree : Tree} (item : Item)
    (member : tree ∈ operands) : tree.nesting + item.level ≤ (node item operands).nesting := by
  have below : tree.nesting ≤ nestingOf operands := by
    induction member with
    | head rest => exact Nat.le_max_left _ _
    | tail first _ ih => exact Nat.le_trans ih (Nat.le_max_right _ _)
  exact Nat.add_le_add_right below _

mutual

/-- A tree is at least as high as its operators and functions stand inside each other. -/
theorem nesting_le_height (tree : Tree) : tree.nesting ≤ tree.height := by
  match tree with
  | .node item operands =>
      have level : item.level ≤ 1 := by
        cases item with
        | literal x => exact Nat.zero_le 1
        | operator definition => exact Nat.le_refl 1
        | function definition => exact Nat.le_refl 1
      exact Nat.add_le_add (nestingOf_le operands) level

theorem nestingOf_le (operands : List Tree) : nestingOf operands ≤ (heights operands).foldr max 0 := by
  match operands with
  | [] => exact Nat.le_refl 0
  | tree :: rest =>
      have first := nesting_le_height tree
      have later := nestingOf_le rest
      simp only [nestingOf, heights, List.foldr_cons]
      omega

end

theorem mem_itemsOf {operands : List Tree} {tree : Tree} {item : Item} (member : tree ∈ operands)
    (inTree : item ∈ tree.items) : item ∈ itemsOf operands := by
  induction member with
  | head rest => exact List.mem_append_left _ inTree
  | tail first _ ih => exact List.mem_append_right _ ih

theorem values?_append (first second : List Tree) :
    values? (first ++ second) =
      (values? first).bind fun values => (values? second).map (values ++ ·) := by
  induction first with
  | nil =>
      change values? second = (values? second).map fun values => values
      rw [Option.map_id']
  | cons tree rest ih =>
      rw [List.cons_append, values?, values?, ih]
      cases tree.value? with
      | none => rfl
      | some value =>
          cases values? rest with
          | none => rfl
          | some values => cases values? second <;> rfl

end Tree

namespace Cursor

/-- A cursor before some items. -/
def before (items : List Item) (depth : Nat) (maxDepth : Int) : Cursor :=
  ⟨items, depth, maxDepth⟩

/-- A way to pull reads a tree that lies next: it takes its items and gives its value. -/
def Reaches (pull : Cursor → Except PullFault Float × Cursor) (depth : Nat) (maxDepth : Int)
    (tree : Tree) : Prop :=
  ∃ value, tree.value? = some value ∧ ∀ below : List Item,
    pull (before (tree.items.reverse ++ below) depth maxDepth) =
      (.ok value, before below depth maxDepth)

/-- A rule reads its operands from the last to the first. -/
theorem run_of_pulls {pull : Cursor → Except PullFault Float × Cursor} {depth : Nat}
    {maxDepth : Int} {count : Nat} {rule : Rule} (pulls : rule.Pulls count) (operands : List Tree)
    (taken : operands.length = count) (reach : ∀ tree ∈ operands, Reaches pull depth maxDepth tree) :
    ∃ values value, Tree.values? operands = some values ∧ rule.valueOn? values.reverse = some value ∧
      ∀ below : List Item,
        rule.run pull (before ((Tree.itemsOf operands).reverse ++ below) depth maxDepth) =
          (.ok value, before below depth maxDepth) := by
  induction pulls generalizing operands with
  | value x =>
      have none : operands = [] := List.eq_nil_of_length_eq_zero taken
      subst none
      exact ⟨[], x, rfl, rfl, fun below => rfl⟩
  | @pull count next rest ih =>
      -- The operand pulled now is the last one of those that are left.
      obtain ⟨earlier, last, rfl⟩ : ∃ earlier last, operands = earlier ++ [last] := by
        refine ⟨operands.dropLast, operands.getLast ?_, (List.dropLast_concat_getLast _).symm⟩
        intro none
        rw [none] at taken
        cases taken
      have left : earlier.length = count := by
        rw [List.length_append] at taken
        exact Nat.succ.inj taken
      obtain ⟨x, lastValue, pulled⟩ := reach last (List.mem_append_right _ (List.mem_singleton.2 rfl))
      obtain ⟨values, value, earlierValues, onValues, runs⟩ :=
        ih x earlier left fun tree member => reach tree (List.mem_append_left _ member)
      refine ⟨values ++ [x], value, ?_, ?_, ?_⟩
      · rw [Tree.values?_append, earlierValues]
        simp [Tree.values?, lastValue]
      · rw [List.reverse_append]
        exact onValues
      · intro below
        rw [Tree.reverse_itemsOf_concat, List.append_assoc, Rule.run, pulled]
        exact runs below

/-- An operator or a function runs its rule one level deeper, unless it stands at the limit. -/
theorem runItem_of_not_literal {pull : Cursor → Except PullFault Float × Cursor} {item : Item}
    (noLiteral : ∀ x, item ≠ .literal x) (cursor : Cursor) :
    runItem pull cursor item =
      if cursor.maxDepth ≤ cursor.depth then (.error (.tooDeep cursor.maxDepth), cursor)
      else
        let (outcome, moved) := item.rule.run pull { cursor with depth := cursor.depth + 1 }
        (outcome, { moved with depth := cursor.depth }) := by
  cases item with
  | literal x => exact absurd rfl (noLiteral x)
  | operator definition => rfl
  | function definition => rfl

/-- Below the limit an operator or a function runs its rule one level deeper. -/
theorem runItem_of_lt {pull : Cursor → Except PullFault Float × Cursor} {item : Item}
    {items below : List Item} {depth : Nat} {maxDepth : Int} {value : Float}
    (noLiteral : ∀ x, item ≠ .literal x) (fits : (depth : Int) < maxDepth)
    (run : item.rule.run pull (before items (depth + 1) maxDepth) =
      (.ok value, before below (depth + 1) maxDepth)) :
    runItem pull (before items depth maxDepth) item = (.ok value, before below depth maxDepth) := by
  have shallow : ¬ (before items depth maxDepth).maxDepth ≤ (before items depth maxDepth).depth :=
    Int.not_le.2 fits
  unfold before at run
  rw [runItem_of_not_literal noLiteral, if_neg shallow]
  simp only [before, run]

/-- A pull reads the tree that lies next, with room for as many pulls as the tree is high. -/
theorem pull_reaches {stack : Nat} {tree : Tree} (complete : tree.Complete)
    (pulls : ∀ item ∈ tree.items, item.PullsArity) (enough : tree.height ≤ stack) {depth : Nat}
    {maxDepth : Int} (fits : (depth + tree.nesting : Int) ≤ maxDepth) :
    Reaches (pull stack) depth maxDepth tree := by
  induction stack generalizing tree depth with
  | zero => exact absurd enough (Nat.not_le.2 tree.height_pos)
  | succ stack ih =>
      cases tree with
      | node item operands =>
          by_cases literal : ∃ x, item = .literal x
          · obtain ⟨x, rfl⟩ := literal
            cases List.eq_nil_of_length_eq_zero complete.1
            exact ⟨x, rfl, fun below => rfl⟩
          · have noLiteral : ∀ x, item ≠ .literal x := fun x same => literal ⟨x, same⟩
            have level := Tree.level_of_not_literal noLiteral
            have rule := pulls item (List.mem_append_right _ (List.mem_singleton.2 rfl))
            have each := Tree.allComplete_iff.1 complete.2
            have reach : ∀ tree ∈ operands, Reaches (pull stack) (depth + 1) maxDepth tree := by
              intro tree member
              have lower := Tree.height_lt_of_mem item member
              have nested := Tree.nesting_add_level_le item member
              apply ih (each tree member)
              · intro other inTree
                exact pulls other (List.mem_append_left _ (Tree.mem_itemsOf member inTree))
              · omega
              · push_cast
                omega
            obtain ⟨values, value, operandValues, onValues, runs⟩ :=
              run_of_pulls rule operands complete.1 reach
            refine ⟨value, ?_, ?_⟩
            · rw [Tree.value?, operandValues]
              exact onValues
            · intro below
              have order : (Tree.node item operands).items.reverse ++ below =
                  item :: ((Tree.itemsOf operands).reverse ++ below) := by
                simp [Tree.items]
              rw [order]
              change runItem (pull stack) (before _ depth maxDepth) item = _
              have positive : 0 < (Tree.node item operands).nesting := by
                rw [Tree.nesting, level]
                exact Nat.succ_pos _
              exact runItem_of_lt noLiteral (by omega) (runs below)

end Cursor

/-- A program keeps the limit it was compiled with, which is not zero. -/
theorem evaluationDepth_of_compile {registry : Registry} {expression : String} {maxDepth : Int}
    {program : Program} (compiled : compile registry expression maxDepth = .ok program) :
    program.evaluationDepth = maxDepth := by
  obtain ⟨items, _, passes, rfl⟩ := compile_eq_ok_iff.1 compiled
  obtain ⟨tree, _, fits, _⟩ := checkOperands_eq_ok_iff.1 passes
  have positive := tree.height_pos
  exact if_neg (by show maxDepth ≠ 0; omega)

/-- The items of a compiled program are those of a tree within the limit. -/
theorem exists_tree_of_compile {registry : Registry} (pulls : registry.PullsArity)
    {expression : String} {maxDepth : Int} {program : Program}
    (compiled : compile registry expression maxDepth = .ok program) :
    ∃ tree : Tree, tree.Complete ∧ tree.items = program.items ∧ (tree.height : Int) ≤ maxDepth ∧
      ∀ item ∈ tree.items, item.PullsArity := by
  obtain ⟨items, assembled, passes, rfl⟩ := compile_eq_ok_iff.1 compiled
  obtain ⟨tree, complete, fits, order⟩ := checkOperands_eq_ok_iff.1 passes
  have itemsPull := pulls.ensures.assemble assembled
  rw [← order] at itemsPull
  exact ⟨tree, complete, order, fits, itemsPull⟩

/-- A stack as high as the tree of a program finds its value, and a higher one finds the same. -/
theorem Tree.exists_value {tree : Tree} (complete : tree.Complete)
    (pulls : ∀ item ∈ tree.items, item.PullsArity) {program : Program}
    (order : tree.items = program.items) (fits : (tree.height : Int) ≤ program.evaluationDepth) :
    ∃ value, tree.value? = some value ∧ ∀ stack : Nat, tree.height ≤ stack →
      (Cursor.ofItems program.items program.evaluationDepth).pull stack =
          (.ok value, ⟨[], 0, program.evaluationDepth⟩) ∧
        program.evaluateWithin stack = .ok value := by
  have nested := tree.nesting_le_height
  have room : ((0 : Nat) + tree.nesting : Int) ≤ program.evaluationDepth := by omega
  obtain ⟨value, hasValue, _⟩ := Cursor.pull_reaches complete pulls (Nat.le_refl _) room
  refine ⟨value, hasValue, ?_⟩
  intro stack enough
  obtain ⟨other, sameValue, pulled⟩ := Cursor.pull_reaches complete pulls enough room
  have agree : other = value := Option.some.inj (sameValue.symm.trans hasValue)
  have whole : (Cursor.ofItems program.items program.evaluationDepth).pull stack =
      (.ok value, ⟨[], 0, program.evaluationDepth⟩) := by
    have run := pulled []
    rw [agree, List.append_nil, order] at run
    exact run
  refine ⟨whole, ?_⟩
  rw [Program.evaluateWithin, whole]
  rfl

/--
A compiled program evaluates to the value of the one complete tree that has its items in postfix
order. The limit of the compilation is room enough for all pulls that are active at once, and the
cursor ends with nothing left and at the depth it started from.
-/
theorem evaluateWithin_of_compile {registry : Registry} (pulls : registry.PullsArity)
    {expression : String} {maxDepth : Int} {program : Program}
    (compiled : compile registry expression maxDepth = .ok program) :
    ∃ tree : Tree, (tree.Complete ∧ tree.items = program.items) ∧
      (∀ other : Tree, other.Complete → other.items = program.items → other = tree) ∧
      ∃ value, tree.value? = some value ∧
        ∀ stack : Nat, maxDepth ≤ stack →
          (Cursor.ofItems program.items program.evaluationDepth).pull stack =
              (.ok value, ⟨[], 0, program.evaluationDepth⟩) ∧
            program.evaluateWithin stack = .ok value := by
  obtain ⟨tree, complete, order, fits, itemsPull⟩ := exists_tree_of_compile pulls compiled
  have limit := evaluationDepth_of_compile compiled
  obtain ⟨value, hasValue, evaluates⟩ :=
    Tree.exists_value complete itemsPull order (limit ▸ fits)
  refine ⟨tree, ⟨complete, order⟩, ?_, value, hasValue, ?_⟩
  · intro other completeOther same
    exact Tree.items_injective completeOther complete (same.trans order.symm)
  · intro stack enough
    exact evaluates stack (by omega)

/-- A difference and a minimum of two variables. -/
def Registry.sample : Registry where
  operators := .ofList [('-', ⟨'-', .add, .binary fun x y => .ok (x - y), "x - y"⟩)]
  functions := .ofList
    [("min", ⟨"min", 2, .binary fun x y => .ok (if y < x then y else x), "min(x, y)"⟩)]
  bindings := .ofList [("a", 1.5), ("b", 2.5)]

theorem Registry.pullsArity_sample : Registry.sample.PullsArity where
  operator found := by
    have listed := Table.mem_of_find?_ofList found
    cases List.mem_singleton.1 listed
    exact .pull fun right => .pull fun left => .value _
  function found := by
    have listed := Table.mem_of_find?_ofList found
    cases List.mem_singleton.1 listed
    exact .pull fun right => .pull fun left => .value _

theorem evaluateWithin_of_compile_sample :
    ∃ program, compile Registry.sample "min(a, b - a) - b" 4 = .ok program ∧
      ∃ tree : Tree, tree.items = program.items ∧
        ∃ value, tree.value? = some value ∧ program.evaluateWithin 4 = .ok value := by
  have compiled : ∃ program, compile Registry.sample "min(a, b - a) - b" 4 = .ok program :=
    ⟨_, by rfl⟩
  obtain ⟨program, compiled⟩ := compiled
  obtain ⟨tree, ⟨_, order⟩, _, value, hasValue, evaluates⟩ :=
    evaluateWithin_of_compile Registry.pullsArity_sample compiled
  exact ⟨program, compiled, tree, order, value, hasValue, (evaluates 4 (by decide)).2⟩

end Calculator
