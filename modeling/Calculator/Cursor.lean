import Calculator.Item

/-!
# Cursors

A cursor reads the items of a program from the last one down. A pull takes
the next item and runs its rule, whose operands are pulled in turn; so the
flat sequence serves as the tree of the expression. The depth counts the
rules that are running and returns to its former value however a pull ends,
while the items read stay read.
-/

namespace Calculator

structure Cursor where
  /-- The items not yet read, the next one first. -/
  rest : List Item
  /-- How many rules are running. -/
  depth : Nat
  maxDepth : Int

inductive PullFault where
  | exhausted
  | tooDeep (maxDepth : Int)
  /-- The pulls nest deeper than the stack of the interpreter allows. -/
  | stackOverflow
  | arithmetic (cause : ArithmeticFault)
deriving Repr, DecidableEq

namespace Cursor

def ofItems (items : List Item) (maxDepth : Int) : Cursor :=
  ⟨items.reverse, 0, maxDepth⟩

def remaining (cursor : Cursor) : Nat :=
  cursor.rest.length

end Cursor

/-- Runs a rule whose operands come from a given way to pull. -/
def Rule.run (pull : Cursor → Except PullFault Float × Cursor) :
    Rule → Cursor → Except PullFault Float × Cursor
  | .value x, cursor => (.ok x, cursor)
  | .fault cause, cursor => (.error (.arithmetic cause), cursor)
  | .pull next, cursor =>
      match pull cursor with
      | (.ok x, moved) => (next x).run pull moved
      | (.error failure, moved) => (.error failure, moved)
  | .remaining next, cursor => (next cursor.remaining).run pull cursor

namespace Cursor

/-- Runs the rule of an item one level deeper and comes back to the level of the cursor. -/
def runItem (pull : Cursor → Except PullFault Float × Cursor) (cursor : Cursor) (item : Item) :
    Except PullFault Float × Cursor :=
  match item with
  | .literal value => (.ok value, cursor)
  | item =>
      if cursor.maxDepth ≤ cursor.depth then (.error (.tooDeep cursor.maxDepth), cursor)
      else
        let (outcome, moved) := item.rule.run pull { cursor with depth := cursor.depth + 1 }
        (outcome, { moved with depth := cursor.depth })

/-- Reads the next item and gives its value, with a stack that holds so many nested pulls. -/
def pull : (stack : Nat) → Cursor → Except PullFault Float × Cursor
  | 0, cursor => (.error .stackOverflow, cursor)
  | stack + 1, cursor =>
      match cursor.rest with
      | [] => (.error .exhausted, cursor)
      | item :: rest => runItem (pull stack) { cursor with rest := rest } item

end Cursor

end Calculator
