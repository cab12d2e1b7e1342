import Calculator.Compile
import Calculator.Cursor

/-!
# Evaluation

A program is evaluated by one pull on a fresh cursor that must read all its
items. The value does not depend on earlier evaluations.
-/

namespace Calculator

/-- How many pulls the stack of the interpreter can hold inside each other. -/
def stackLimit : Nat := 480

inductive EvaluationFault where
  | exhausted
  | tooDeep (maxDepth : Int)
  | stackOverflow (source : String)
  | leftOver (count : Nat) (source : String)
  | arithmetic (cause : ArithmeticFault)
deriving Repr, DecidableEq

namespace EvaluationFault

def ofPull (source : String) : PullFault → EvaluationFault
  | .exhausted => .exhausted
  | .tooDeep maxDepth => .tooDeep maxDepth
  | .stackOverflow => .stackOverflow source
  | .arithmetic cause => .arithmetic cause

open Text (quoted) in
def message : EvaluationFault → String
  | .exhausted => "Operand requested from an exhausted program"
  | .tooDeep maxDepth => "Expression nests deeper than " ++ toString maxDepth
  | .stackOverflow source =>
      "Expression " ++ quoted source ++ " nests deeper than the interpreter stack allows"
  | .leftOver count source =>
      toString count ++ " item(s) left after evaluating " ++ quoted source
  | .arithmetic .zeroDivision => "division by zero"
  | .arithmetic .domain => "math domain error"
  | .arithmetic .overflow => "math range error"

end EvaluationFault

/-- The depth a program is evaluated with. -/
def Program.evaluationDepth (program : Program) : Int :=
  if program.maxDepth = 0 then defaultMaxDepth else program.maxDepth

/-- Evaluates a program with a stack that holds so many nested pulls. -/
def Program.evaluateWithin (stack : Nat) (program : Program) : Except EvaluationFault Float :=
  match (Cursor.ofItems program.items program.evaluationDepth).pull stack with
  | (.error failure, _) => .error (.ofPull program.source failure)
  | (.ok value, cursor) =>
      if cursor.remaining = 0 then .ok value
      else .error (.leftOver cursor.remaining program.source)

def Program.evaluate (program : Program) : Except EvaluationFault Float :=
  program.evaluateWithin stackLimit

end Calculator
