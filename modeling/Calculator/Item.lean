import Calculator.Decimal.Layout
import Calculator.Rule

/-!
# Items of a program

A program is a sequence of items in postfix order: every operator and every
function stands after its operands. Its last item is the root of the
expression and is read first.
-/

namespace Calculator

/-- How tightly an operator binds. The first and the last class also rank brackets and functions. -/
inductive Precedence where
  | openBracket
  | add
  | multiply
  | exponential
  | function
deriving Repr, DecidableEq

def Precedence.rank : Precedence → Nat
  | .openBracket => 0
  | .add => 1
  | .multiply => 2
  | .exponential => 3
  | .function => 4

/-- The name of a precedence class. -/
def Precedence.label : Precedence → String
  | .openBracket => "open_bracket"
  | .add => "add"
  | .multiply => "multiply"
  | .exponential => "exponential"
  | .function => "function"

def Precedence.all : List Precedence := [.openBracket, .add, .multiply, .exponential, .function]

def Precedence.ofRank? (rank : Int) : Option Precedence :=
  Precedence.all.find? fun precedence => precedence.rank = rank

theorem Precedence.rank_le_function (precedence : Precedence) :
    precedence.rank ≤ Precedence.function.rank := by
  cases precedence <;> decide

/-- A binary operator, written between its operands. -/
structure Operator where
  symbol : Char
  precedence : Precedence
  rule : Rule
  usage : String

/-- A function, written before its bracketed arguments. -/
structure Function where
  name : String
  arity : Nat
  rule : Rule
  usage : String

inductive Item where
  | literal (value : Float)
  | operator (definition : Operator)
  | function (definition : Function)

namespace Item

def arity : Item → Nat
  | .literal _ => 0
  | .operator _ => 2
  | .function definition => definition.arity

def text : Item → String
  | .literal value => Decimal.Layout.display.text value
  | .operator definition => definition.symbol.toString
  | .function definition => definition.name

/-- The rule of an operator or a function; a literal is its own value. -/
def rule : Item → Rule
  | .literal value => .value value
  | .operator definition => definition.rule
  | .function definition => definition.rule

end Item

structure Program where
  items : List Item
  source : String
  /-- How deep the program may nest; zero leaves it to the default. -/
  maxDepth : Int

def Program.postfixText (program : Program) : String :=
  " ".intercalate (program.items.map Item.text)

end Calculator
