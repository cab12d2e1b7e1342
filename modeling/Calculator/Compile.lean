import Calculator.Assembly
import Calculator.Operands

/-!
# Compilation

An expression is stripped of its blanks, split into tokens, put into postfix
order and checked for operands and depth. The first problem found is the
answer when there is one.
-/

namespace Calculator

/-- How deep expressions may nest when nothing else is asked for. -/
def defaultMaxDepth : Nat := 200

/-- The greatest depth that settings may ask for. -/
def maxDepthLimit : Nat := 300

/-- The items of a source without blanks. -/
def assemble (registry : Registry) (source : List Char) : Except ParseError (List Item) := do
  let assembly ← Assembly.empty.acceptAll registry (Token.ofSource registry.isOperator source)
  assembly.finish

def compile (registry : Registry) (expression : String) (maxDepth : Int) :
    Except ParseError Program := do
  let source := Text.stripBlanks expression
  let items ← assemble registry source.toList
  checkOperands items maxDepth
  return ⟨items, source, maxDepth⟩

end Calculator
