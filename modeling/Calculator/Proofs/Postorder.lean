import Calculator.Proofs.Chain
import Calculator.Tree

/-!
# Postfix order and trees

A sequence of items is the postfix order of at most one complete tree: a
stack of trees reads the tree back. The operand check runs the same stack
with heights in place of trees, so it accepts exactly the postfix orders of
complete trees within the limit.
-/

namespace Calculator

/-- Plants an item on a stack of trees, top first: its operands are the trees it takes. -/
def Item.plant (trees : List Tree) (item : Item) : List Tree :=
  .node item (trees.take item.arity).reverse :: trees.drop item.arity

namespace Tree

/-! ## Reading a tree back -/

mutual

theorem foldl_plant_items (tree : Tree) (complete : tree.Complete) (below : List Tree) :
    tree.items.foldl Item.plant below = tree :: below := by
  match tree with
  | .node item operands =>
      have planted := foldl_plant_itemsOf operands complete.2 below
      have arity : item.arity = operands.reverse.length := by
        rw [List.length_reverse]
        exact complete.1.symm
      rw [items, List.foldl_append, planted]
      simp [Item.plant, arity]

theorem foldl_plant_itemsOf (operands : List Tree) (complete : AllComplete operands)
    (below : List Tree) :
    (itemsOf operands).foldl Item.plant below = operands.reverse ++ below := by
  match operands with
  | [] => rfl
  | tree :: rest =>
      rw [itemsOf, List.foldl_append, foldl_plant_items tree complete.1,
        foldl_plant_itemsOf rest complete.2]
      simp

end

/-- Complete trees with the same items in postfix order are the same. -/
theorem items_injective {first second : Tree} (complete : first.Complete)
    (other : second.Complete) (same : first.items = second.items) : first = second := by
  have planted := foldl_plant_items first complete []
  rw [same, foldl_plant_items second other []] at planted
  exact (List.cons.inj planted).1.symm

/-! ## Forests in order -/

theorem itemsOf_append (first second : List Tree) :
    itemsOf (first ++ second) = itemsOf first ++ itemsOf second := by
  induction first with
  | nil => rfl
  | cons tree rest ih => simp [itemsOf, ih]

/-- Read from the end, the last tree comes first. -/
theorem reverse_itemsOf_concat (earlier : List Tree) (last : Tree) :
    (itemsOf (earlier ++ [last])).reverse = last.items.reverse ++ (itemsOf earlier).reverse := by
  simp [itemsOf_append, itemsOf]

theorem heights_append (first second : List Tree) :
    heights (first ++ second) = heights first ++ heights second := by
  induction first with
  | nil => rfl
  | cons tree rest ih => simp [heights, ih]

theorem allComplete_append {first second : List Tree} :
    AllComplete (first ++ second) ↔ AllComplete first ∧ AllComplete second := by
  induction first with
  | nil => simp [AllComplete]
  | cons tree rest ih => simp [AllComplete, ih, and_assoc]

theorem allComplete_iff {forest : List Tree} :
    AllComplete forest ↔ ∀ tree ∈ forest, tree.Complete := by
  induction forest with
  | nil => simp [AllComplete]
  | cons tree rest ih => simp [AllComplete, ih]

end Tree

/-! ## The operand check -/

/-- A forest that the operand check has read: what stands on the stack are its heights. -/
structure Reads (maxDepth : Int) (items : List Item) (heights : List Nat) (forest : List Tree) :
    Prop where
  complete : Tree.AllComplete forest
  items_eq : Tree.itemsOf forest = items
  heights_eq : heights = (Tree.heights forest).reverse
  fits : ∀ height ∈ heights, (height : Int) ≤ maxDepth

/-- One more item takes the last trees of the forest as its operands. -/
theorem Reads.stack {maxDepth : Int} {items : List Item} {heights next : List Nat}
    {forest : List Tree} {item : Item} (reads : Reads maxDepth items heights forest)
    (accepted : item.stack maxDepth heights = .ok next) :
    ∃ grown, Reads maxDepth (items ++ [item]) next grown := by
  obtain ⟨enough, shown, rfl⟩ := Item.stack_eq_ok_iff.1 accepted
  have count : heights.length = forest.length := by
    rw [reads.heights_eq, List.length_reverse, Tree.length_heights]
  rw [count] at enough
  -- The trees that stay, and those that become operands.
  obtain ⟨stay, operands, rfl, taken⟩ : ∃ stay operands,
      forest = stay ++ operands ∧ operands.length = item.arity := by
    refine ⟨forest.take (forest.length - item.arity), forest.drop (forest.length - item.arity),
      (List.take_append_drop _ _).symm, ?_⟩
    rw [List.length_drop]
    omega
  obtain ⟨completeStay, completeOperands⟩ := Tree.allComplete_append.1 reads.complete
  have split : heights = (Tree.heights operands).reverse ++ (Tree.heights stay).reverse := by
    rw [reads.heights_eq, Tree.heights_append, List.reverse_append]
  have length : (Tree.heights operands).reverse.length = item.arity := by
    rw [List.length_reverse, Tree.length_heights, taken]
  have top : heights.take item.arity = (Tree.heights operands).reverse := by
    rw [split, List.take_left' length]
  have below : heights.drop item.arity = (Tree.heights stay).reverse := by
    rw [split, List.drop_left' length]
  refine ⟨stay ++ [.node item operands], ?_, ?_, ?_, ?_⟩
  · rw [Tree.allComplete_append]
    exact ⟨completeStay, ⟨taken, completeOperands⟩, trivial⟩
  · rw [← reads.items_eq, Tree.itemsOf_append, Tree.itemsOf_append]
    simp [Tree.itemsOf, Tree.items]
  · rw [top, below, heightOver_reverse, Tree.heights_append]
    simp [Tree.heights, Tree.height]
  · intro height member
    rcases List.mem_cons.1 member with rfl | old
    · exact shown
    · exact reads.fits height (List.mem_of_mem_drop old)

theorem Reads.foldlM {maxDepth : Int} {items later : List Item} {heights last : List Nat}
    {forest : List Tree} (reads : Reads maxDepth items heights forest)
    (accepted : later.foldlM (Item.stack maxDepth) heights = .ok last) :
    ∃ grown, Reads maxDepth (items ++ later) last grown := by
  induction later generalizing items heights forest with
  | nil =>
      cases accepted
      exact ⟨forest, by simpa using reads⟩
  | cons item rest ih =>
      rw [List.foldlM_cons] at accepted
      cases step : item.stack maxDepth heights with
      | error error => simp [step, bind, Except.bind] at accepted
      | ok next =>
          simp only [step, bind, Except.bind] at accepted
          obtain ⟨grown, readsNext⟩ := reads.stack step
          obtain ⟨full, readsLast⟩ := ih readsNext accepted
          exact ⟨full, by simpa using readsLast⟩

theorem checkOperands_eq_ok {items : List Item} {maxDepth : Int}
    (accepted : checkOperands items maxDepth = .ok ()) :
    ∃ height, items.foldlM (Item.stack maxDepth) [] = .ok [height] := by
  unfold checkOperands at accepted
  cases run : items.foldlM (Item.stack maxDepth) [] with
  | error error => simp [run, bind, Except.bind] at accepted
  | ok heights =>
      simp only [run, bind, Except.bind] at accepted
      split at accepted
      · exact ⟨_, rfl⟩
      · cases accepted

/-- The operand check accepts exactly the postfix orders of complete trees within the limit. -/
theorem checkOperands_eq_ok_iff {items : List Item} {maxDepth : Int} :
    checkOperands items maxDepth = .ok () ↔
      ∃ tree : Tree, tree.Complete ∧ (tree.height : Int) ≤ maxDepth ∧ tree.items = items := by
  constructor
  · intro accepted
    obtain ⟨height, run⟩ := checkOperands_eq_ok accepted
    have nothing : Reads maxDepth [] [] [] := ⟨trivial, rfl, rfl, by simp⟩
    obtain ⟨forest, reads⟩ := nothing.foldlM run
    have one : forest.length = 1 := by
      have lengths := congrArg List.length reads.heights_eq
      rw [List.length_reverse, Tree.length_heights] at lengths
      exact lengths.symm
    obtain ⟨tree, rfl⟩ := List.length_eq_one_iff.1 one
    have same : [height] = [tree.height] := reads.heights_eq
    refine ⟨tree, reads.complete.1, ?_, ?_⟩
    · rw [← (List.cons.inj same).1]
      exact reads.fits height (List.mem_singleton.2 rfl)
    · simpa [Tree.itemsOf] using reads.items_eq
  · rintro ⟨tree, complete, fits, rfl⟩
    unfold checkOperands
    rw [Tree.foldlM_items tree complete fits []]
    rfl

/-! ## Counting values -/

namespace Tree

/-- How many values the items of a forest leave, when they may borrow what is missing. -/
def surplus (forest : List Tree) : Int :=
  sumOver (fun item => 1 - (item.arity : Int)) (itemsOf forest)

theorem surplus_append (first second : List Tree) :
    surplus (first ++ second) = surplus first + surplus second := by
  rw [surplus, itemsOf_append, sumOver_append, surplus, surplus]

theorem surplus_node (item : Item) (operands : List Tree) :
    surplus [node item operands] = surplus operands + 1 - item.arity := by
  simp only [surplus, itemsOf, items, List.append_nil, sumOver_append, sumOver]
  omega

mutual

theorem surplus_of_complete (tree : Tree) (complete : tree.Complete) : surplus [tree] = 1 := by
  match tree with
  | .node item operands =>
      rw [surplus_node, surplus_of_allComplete operands complete.2, ← complete.1]
      omega

theorem surplus_of_allComplete (operands : List Tree) (complete : AllComplete operands) :
    surplus operands = operands.length := by
  match operands with
  | [] => rfl
  | tree :: rest =>
      have split : surplus (tree :: rest) = surplus [tree] + surplus rest := surplus_append [tree] rest
      rw [split, surplus_of_complete tree complete.1, surplus_of_allComplete rest complete.2]
      simp
      omega

end

/-- A forest whose items pass the operand check leaves one value. -/
theorem surplus_of_checkOperands {forest : List Tree} {maxDepth : Int}
    (accepted : checkOperands (itemsOf forest) maxDepth = .ok ()) : surplus forest = 1 := by
  obtain ⟨tree, complete, _, same⟩ := checkOperands_eq_ok_iff.1 accepted
  have one := surplus_of_complete tree complete
  rw [surplus, itemsOf, itemsOf, List.append_nil, same] at one
  exact one

end Tree

end Calculator
