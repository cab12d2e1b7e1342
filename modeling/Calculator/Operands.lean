import Calculator.Item
import Calculator.ParseError

/-!
# Operand check

A sequence of items in postfix order is read from the left with a stack of
heights, one for each value computed so far. Every operator and function
must find its operands there, no value may nest deeper than the limit, and
one value must be left at the end.
-/

namespace Calculator

/-- The height of a value over the heights of its operands; a literal has height one. -/
def heightOver (operands : List Nat) : Nat :=
  operands.foldr max 0 + 1

theorem heightOver_reverse (operands : List Nat) :
    heightOver operands.reverse = heightOver operands := by
  have commutes (first second rest : Nat) :
      max first (max second rest) = max second (max first rest) := by omega
  exact congrArg (· + 1)
    ((List.reverse_perm operands).foldr_eq' (fun x _ y _ z => commutes y x z) 0)

theorem lt_heightOver {height : Nat} {operands : List Nat} (member : height ∈ operands) :
    height < heightOver operands := by
  induction member with
  | head rest => exact Nat.lt_succ_of_le (Nat.le_max_left _ _)
  | tail first _ ih => exact Nat.lt_of_lt_of_le ih (Nat.succ_le_succ (Nat.le_max_right _ _))

/-- Reads one item; the heights stand top first. -/
def Item.stack (maxDepth : Int) (heights : List Nat) (item : Item) : Except ParseError (List Nat) :=
  if heights.length < item.arity then .error (.malformed item.text)
  else
    let height := heightOver (heights.take item.arity)
    if maxDepth < height then .error (.malformed "")
    else .ok (height :: heights.drop item.arity)

theorem Item.stack_eq_ok_iff {maxDepth : Int} {heights next : List Nat} {item : Item} :
    item.stack maxDepth heights = .ok next ↔
      item.arity ≤ heights.length ∧ (heightOver (heights.take item.arity) : Int) ≤ maxDepth ∧
        next = heightOver (heights.take item.arity) :: heights.drop item.arity := by
  by_cases missing : heights.length < item.arity
  · rw [stack, if_pos missing]
    constructor
    · intro accepted
      cases accepted
    · rintro ⟨enough, _⟩
      exact absurd enough (Nat.not_le_of_lt missing)
  · by_cases tooDeep : maxDepth < (heightOver (heights.take item.arity) : Int)
    · simp only [stack, if_neg missing, if_pos tooDeep]
      constructor
      · intro accepted
        cases accepted
      · rintro ⟨_, shown, _⟩
        exact absurd shown (Int.not_le.2 tooDeep)
    · simp only [stack, if_neg missing, if_neg tooDeep, Except.ok.injEq]
      constructor
      · rintro rfl
        exact ⟨Nat.le_of_not_lt missing, Int.not_lt.1 tooDeep, rfl⟩
      · rintro ⟨_, _, rfl⟩
        rfl

/-- An item over just its operands, which stand on the values below them. -/
theorem Item.stack_append {maxDepth : Int} {item : Item} {operands : List Nat}
    (arity : operands.length = item.arity) (below : List Nat) :
    item.stack maxDepth (operands ++ below) =
      if maxDepth < heightOver operands then .error (.malformed "")
      else .ok (heightOver operands :: below) := by
  have enough : ¬ (operands ++ below).length < item.arity := by
    rw [List.length_append, arity]
    omega
  rw [stack, if_neg enough, List.take_left' arity, List.drop_left' arity]

def checkOperands (items : List Item) (maxDepth : Int) : Except ParseError Unit := do
  match ← items.foldlM (Item.stack maxDepth) [] with
  | [_] => return ()
  | _ => throw (.malformed "")

end Calculator
