/-!
# Rules

A rule computes the value of an operator or a function. It asks for its
operands one at a time, the last operand first, and may ask how many items
of the program are left. A rule is data: whoever runs it decides where the
operands come from.
-/

namespace Calculator

/-- Why an arithmetic operation has no value. -/
inductive ArithmeticFault where
  | zeroDivision
  | domain
  | overflow
deriving Repr, DecidableEq

inductive Rule where
  | value (x : Float)
  | fault (cause : ArithmeticFault)
  | pull (next : Float → Rule)
  | remaining (next : Nat → Rule)

namespace Rule

def ofOutcome : Except ArithmeticFault Float → Rule
  | .ok x => .value x
  | .error cause => .fault cause

def unary (f : Float → Except ArithmeticFault Float) : Rule :=
  .pull fun x => ofOutcome (f x)

/-- The right operand stands above the left one and comes first. -/
def binary (f : Float → Float → Except ArithmeticFault Float) : Rule :=
  .pull fun right => .pull fun left => ofOutcome (f left right)

/-- Pulls a number of operands and goes on with them in the order of the pulls. -/
def gather : Nat → (List Float → Rule) → Rule
  | 0, next => next []
  | count + 1, next => .pull fun x => gather count fun rest => next (x :: rest)

/-- The rule pulls exactly this many operands and then has a value. -/
inductive Pulls : Nat → Rule → Prop where
  | value (x : Float) : Pulls 0 (.value x)
  | pull {count : Nat} {next : Float → Rule} (rest : ∀ x, Pulls count (next x)) :
      Pulls (count + 1) (.pull next)

/-- The value of a rule on operands in the order of the pulls, when it pulls just so many. -/
def valueOn? : Rule → List Float → Option Float
  | .value x, [] => some x
  | .pull next, x :: rest => (next x).valueOn? rest
  | _, _ => none

theorem isSome_valueOn?_iff {count : Nat} {rule : Rule} (pulls : Pulls count rule)
    (operands : List Float) : (rule.valueOn? operands).isSome ↔ operands.length = count := by
  induction pulls generalizing operands with
  | value x => cases operands <;> simp [valueOn?]
  | pull _ ih => cases operands <;> simp [valueOn?, ih]

end Rule

end Calculator
