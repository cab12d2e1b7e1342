import Calculator.Catalog
import Calculator.Proofs.Postorder
import Calculator.Proofs.Stack

/-!
# Height and the depth limit

The operand check reads nothing of an item but its arity, and accepts the
postfix orders of complete trees within the limit. The limit itself decides
only between these trees and higher ones: a complete tree that is too high is
malformed wherever it stands, so an expression compiles for all limits from
the height of its tree on, or for none.
-/

namespace Calculator

/-! ## Arities -/

theorem Item.stack_of_arity_eq {maxDepth : Int} {heights next : List Nat} {item other : Item}
    (same : other.arity = item.arity) (accepted : item.stack maxDepth heights = .ok next) :
    other.stack maxDepth heights = .ok next := by
  rw [Item.stack_eq_ok_iff] at accepted ⊢
  rw [same]
  exact accepted

theorem foldlM_stack_of_arities_eq {maxDepth : Int} {items others : List Item}
    {heights last : List Nat} (same : others.map Item.arity = items.map Item.arity)
    (accepted : items.foldlM (Item.stack maxDepth) heights = .ok last) :
    others.foldlM (Item.stack maxDepth) heights = .ok last := by
  induction items generalizing others heights with
  | nil =>
      rw [List.map_nil, List.map_eq_nil_iff] at same
      rw [same]
      exact accepted
  | cons item rest ih =>
      obtain ⟨other, later, rfl, first, tail⟩ := List.map_eq_cons_iff.1 same
      rw [List.foldlM_cons] at accepted ⊢
      obtain ⟨next, step, run⟩ := bind_eq_ok accepted
      rw [Item.stack_of_arity_eq first step]
      exact ih tail run

/-- The arities alone decide whether the operand check accepts. -/
theorem checkOperands_of_arities_eq {items others : List Item} {maxDepth : Int}
    (same : others.map Item.arity = items.map Item.arity)
    (accepted : checkOperands items maxDepth = .ok ()) : checkOperands others maxDepth = .ok () := by
  obtain ⟨height, run⟩ := checkOperands_eq_ok accepted
  rw [checkOperands, foldlM_stack_of_arities_eq same run]
  rfl

/-! ## Trees that are too high -/

namespace Tree

mutual

/-- Reading a complete tree that is too high ends at the first item that is. -/
theorem foldlM_items_of_lt {maxDepth : Int} (tree : Tree) (complete : tree.Complete)
    (deep : maxDepth < tree.height) (below : List Nat) :
    tree.items.foldlM (Item.stack maxDepth) below = .error (.malformed "") := by
  match tree with
  | .node item operands =>
      rw [items, List.foldlM_append]
      by_cases deeper : ∃ height ∈ heights operands, maxDepth < (height : Int)
      · rw [foldlM_itemsOf_of_lt operands complete.2 deeper below]
        rfl
      · -- All operands are low enough, and the item over them is the first that is not.
        have fits : ∀ height ∈ heights operands, (height : Int) ≤ maxDepth :=
          fun height member => Int.not_lt.1 fun high => deeper ⟨height, member, high⟩
        have high : maxDepth < heightOver (heights operands) := deep
        have last : item.stack maxDepth ((heights operands).reverse ++ below) =
            .error (.malformed "") := by
          rw [stack_heights complete.1, if_pos high]
        rw [foldlM_itemsOf operands complete.2 fits below]
        change (item.stack maxDepth ((heights operands).reverse ++ below) >>= pure) = _
        rw [last]
        rfl

theorem foldlM_itemsOf_of_lt {maxDepth : Int} (operands : List Tree)
    (complete : AllComplete operands)
    (deep : ∃ height ∈ heights operands, maxDepth < (height : Int)) (below : List Nat) :
    (itemsOf operands).foldlM (Item.stack maxDepth) below = .error (.malformed "") := by
  match operands with
  | [] =>
      obtain ⟨_, member, _⟩ := deep
      cases member
  | tree :: rest =>
      rw [itemsOf, List.foldlM_append]
      by_cases high : maxDepth < tree.height
      · rw [foldlM_items_of_lt tree complete.1 high below]
        rfl
      · have later : ∃ height ∈ heights rest, maxDepth < (height : Int) := by
          obtain ⟨height, member, above⟩ := deep
          rcases List.mem_cons.1 member with rfl | inRest
          · exact absurd above high
          · exact ⟨height, inRest, above⟩
        rw [foldlM_items tree complete.1 (Int.not_lt.1 high) below]
        exact foldlM_itemsOf_of_lt rest complete.2 later _

end

/-- On the postfix order of a complete tree the operand check is a test of its height. -/
theorem checkOperands_items {tree : Tree} (complete : tree.Complete) (maxDepth : Int) :
    checkOperands tree.items maxDepth =
      if (tree.height : Int) ≤ maxDepth then .ok () else .error (.malformed "") := by
  by_cases fits : (tree.height : Int) ≤ maxDepth
  · rw [if_pos fits]
    exact checkOperands_eq_ok_iff.2 ⟨tree, complete, fits, rfl⟩
  · rw [if_neg fits, checkOperands, foldlM_items_of_lt tree complete (Int.not_le.1 fits) []]
    rfl

end Tree

/-! ## The limit of an expression -/

/-- An expression that compiles has a tree, whose height is where its limits begin. -/
theorem exists_threshold_of_compile {registry : Registry} {expression : String} {accepted : Int}
    {program : Program} (compiled : compile registry expression accepted = .ok program) :
    ∃ tree : Tree, tree.Complete ∧ tree.items = program.items ∧
      ∀ maxDepth : Int, compile registry expression maxDepth =
        if (tree.height : Int) ≤ maxDepth then .ok ⟨program.items, program.source, maxDepth⟩
        else .error (.malformed "") := by
  obtain ⟨items, assembled, passes, rfl⟩ := compile_eq_ok_iff.1 compiled
  obtain ⟨tree, complete, _, rfl⟩ := checkOperands_eq_ok_iff.1 passes
  refine ⟨tree, complete, rfl, ?_⟩
  intro maxDepth
  rw [compile, assembled]
  change (checkOperands tree.items maxDepth >>= fun _ => _) = _
  rw [Tree.checkOperands_items complete]
  by_cases fits : (tree.height : Int) ≤ maxDepth
  · rw [if_pos fits, if_pos fits]
    rfl
  · rw [if_neg fits, if_neg fits]
    rfl

/--
The operand check accepts a sequence exactly when it is the postfix order of a complete tree within
the limit. There is at most one such tree, and only the arities tell whether there is one, so an
item stands for all that take as many operands. An expression that compiles for some limit compiles
for exactly those from the height of its tree on, into the same items.
-/
theorem checkOperands_recognises_trees :
    (∀ (items : List Item) (maxDepth : Int),
      (checkOperands items maxDepth = .ok () ↔
        ∃ tree : Tree, tree.Complete ∧ tree.items = items ∧ (tree.height : Int) ≤ maxDepth) ∧
      (∀ first second : Tree, first.Complete → first.items = items →
        second.Complete → second.items = items → first = second) ∧
      ∀ others : List Item, others.map Item.arity = items.map Item.arity →
        (checkOperands others maxDepth = .ok () ↔ checkOperands items maxDepth = .ok ())) ∧
    ∀ (registry : Registry) (expression : String) (accepted : Int) (program : Program),
      compile registry expression accepted = .ok program →
        ∃ tree : Tree, tree.Complete ∧ tree.items = program.items ∧
          ∀ maxDepth : Int, compile registry expression maxDepth =
            if (tree.height : Int) ≤ maxDepth then .ok ⟨program.items, program.source, maxDepth⟩
            else .error (.malformed "") := by
  refine ⟨?_, fun _ _ _ _ compiled => exists_threshold_of_compile compiled⟩
  intro items maxDepth
  refine ⟨?_, ?_, ?_⟩
  · rw [checkOperands_eq_ok_iff]
    constructor
    · rintro ⟨tree, complete, fits, listed⟩
      exact ⟨tree, complete, listed, fits⟩
    · rintro ⟨tree, complete, listed, fits⟩
      exact ⟨tree, complete, fits, listed⟩
  · intro first second complete listed other same
    exact Tree.items_injective complete other (listed.trans same.symm)
  · intro others same
    exact ⟨checkOperands_of_arities_eq same.symm, checkOperands_of_arities_eq same⟩

theorem checkOperands_recognises_trees_power :
    ∃ program, ∃ tree : Tree,
      compile Catalog.registry "2 * (3 + 4) ^ 5" defaultMaxDepth = .ok program ∧
      tree.Complete ∧ tree.items = program.items ∧ tree.height = 4 ∧
      ∀ maxDepth : Int, compile Catalog.registry "2 * (3 + 4) ^ 5" maxDepth =
        if 4 ≤ maxDepth then .ok ⟨program.items, program.source, maxDepth⟩
        else .error (.malformed "") := by
  have compiled : ∃ program,
      compile Catalog.registry "2 * (3 + 4) ^ 5" defaultMaxDepth = .ok program := ⟨_, by rfl⟩
  obtain ⟨program, compiled⟩ := compiled
  obtain ⟨tree, complete, listed, threshold⟩ :=
    checkOperands_recognises_trees.2 _ _ _ _ compiled
  have enough : ∃ lowest, compile Catalog.registry "2 * (3 + 4) ^ 5" 4 = .ok lowest := ⟨_, by rfl⟩
  have tooLow : compile Catalog.registry "2 * (3 + 4) ^ 5" 3 = .error (.malformed "") := rfl
  have height : tree.height = 4 := by
    obtain ⟨lowest, enough⟩ := enough
    rw [threshold] at enough tooLow
    split at enough
    next fits =>
      split at tooLow
      next => cases tooLow
      next high => omega
    next => cases enough
  refine ⟨program, tree, compiled, complete, listed, height, ?_⟩
  rw [height] at threshold
  exact threshold

end Calculator
