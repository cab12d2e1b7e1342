import Calculator.Operands

/-!
# Trees

The tree of an expression: an item over the trees of its operands. A program
in postfix order lists the items of a tree, operands first. Height and value
of a tree are found from the leaves up.
-/

namespace Calculator

inductive Tree where
  | node (item : Item) (operands : List Tree)

/-- The levels of running rules that an item adds. -/
def Item.level : Item → Nat
  | .literal _ => 0
  | .operator _ | .function _ => 1

namespace Tree

mutual

/-- The items in postfix order. -/
def items : Tree → List Item
  | .node item operands => itemsOf operands ++ [item]

def itemsOf : List Tree → List Item
  | [] => []
  | tree :: rest => tree.items ++ itemsOf rest

end

mutual

def height : Tree → Nat
  | .node _ operands => heightOver (heights operands)

def heights : List Tree → List Nat
  | [] => []
  | tree :: rest => tree.height :: heights rest

end

mutual

/-- How many operators and functions stand inside each other; a literal adds none. -/
def nesting : Tree → Nat
  | .node item operands => nestingOf operands + item.level

def nestingOf : List Tree → Nat
  | [] => 0
  | tree :: rest => max tree.nesting (nestingOf rest)

end

mutual

/-- Every item has as many operands as it takes. -/
def Complete : Tree → Prop
  | .node item operands => operands.length = item.arity ∧ AllComplete operands

def AllComplete : List Tree → Prop
  | [] => True
  | tree :: rest => tree.Complete ∧ AllComplete rest

end

mutual

/-- The value over the values of the operands, the last of which comes first. -/
def value? : Tree → Option Float
  | .node item operands =>
      (values? operands).bind fun values => item.rule.valueOn? values.reverse

def values? : List Tree → Option (List Float)
  | [] => some []
  | tree :: rest => tree.value?.bind fun value => (values? rest).map (value :: ·)

end

theorem length_heights (operands : List Tree) : (heights operands).length = operands.length := by
  induction operands with
  | nil => rfl
  | cons tree rest ih => simp [heights, ih]

theorem items_ne_nil (tree : Tree) : tree.items ≠ [] := by
  cases tree; simp [items]

/-- An item over the heights of its operands, the last of which stands on top. -/
theorem stack_heights {maxDepth : Int} {item : Item} {operands : List Tree}
    (arity : operands.length = item.arity) (below : List Nat) :
    item.stack maxDepth ((heights operands).reverse ++ below) =
      if maxDepth < heightOver (heights operands) then .error (.malformed "")
      else .ok (heightOver (heights operands) :: below) := by
  have length : (heights operands).reverse.length = item.arity := by
    rw [List.length_reverse, length_heights, arity]
  rw [Item.stack_append length, heightOver_reverse]

mutual

/-- Reading the items of a complete tree puts its height on the stack. -/
theorem foldlM_items {maxDepth : Int} (tree : Tree) (complete : tree.Complete)
    (fits : tree.height ≤ maxDepth) (below : List Nat) :
    tree.items.foldlM (Item.stack maxDepth) below = .ok (tree.height :: below) := by
  match tree with
  | .node item operands =>
      have all : ∀ height ∈ heights operands, (height : Int) ≤ maxDepth := fun height member =>
        Int.le_trans (Int.ofNat_le.2 (Nat.le_of_lt (lt_heightOver member))) fits
      have low : ¬ maxDepth < heightOver (heights operands) := Int.not_lt.2 fits
      have last : item.stack maxDepth ((heights operands).reverse ++ below) =
          .ok (heightOver (heights operands) :: below) := by
        rw [stack_heights complete.1, if_neg low]
      rw [items, List.foldlM_append, foldlM_itemsOf operands complete.2 all below]
      change (item.stack maxDepth ((heights operands).reverse ++ below) >>= pure) = _
      rw [last]
      rfl

theorem foldlM_itemsOf {maxDepth : Int} (operands : List Tree) (complete : AllComplete operands)
    (fits : ∀ height ∈ heights operands, (height : Int) ≤ maxDepth) (below : List Nat) :
    (itemsOf operands).foldlM (Item.stack maxDepth) below =
      .ok ((heights operands).reverse ++ below) := by
  match operands with
  | [] => rfl
  | tree :: rest =>
      have first : (tree.height : Int) ≤ maxDepth := fits _ (by simp [heights])
      have later : ∀ height ∈ heights rest, (height : Int) ≤ maxDepth := fun height member =>
        fits _ (by simp [heights, member])
      simp only [itemsOf, List.foldlM_append, foldlM_items tree complete.1 first]
      simp [bind, Except.bind, foldlM_itemsOf rest complete.2 later, heights]

end

end Tree

end Calculator
