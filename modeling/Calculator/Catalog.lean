import Calculator.Catalog.Arithmetic
import Calculator.Evaluation
import Calculator.Registry.Supply

/-!
# The built-in catalog

The operators, functions and constants that every expression may use. No
rule of the catalog refuses an operand.
-/

namespace Calculator.Catalog

def pi : Float := 3.141592653589793

def e : Float := 2.718281828459045

def constants : List (String × Float) := [("PI", pi), ("E", e)]

section

open Rule Arithmetic

variable (elementary : Elementary)

/-- An operation that refuses nothing. -/
def plain (f : Float → Float) (x : Float) : Except ArithmeticFault Float :=
  .ok (f x)

def plain₂ (f : Float → Float → Float) (x y : Float) : Except ArithmeticFault Float :=
  .ok (f x y)

def operators : List Operator :=
  [⟨'+', .add, binary (plain₂ Float.add), "val1 + val2"⟩,
   ⟨'-', .add, binary (plain₂ Float.sub), "val1 - val2"⟩,
   ⟨'*', .multiply, binary (plain₂ Float.mul), "val1 * val2"⟩,
   ⟨'/', .multiply, binary (divide elementary), "val1 / val2"⟩,
   ⟨'^', .exponential, binary (power elementary), "val1 ^ val2"⟩]

def functions : List Function :=
  [⟨"sin", 1, unary (orNaN elementary.sin), "sin(x)"⟩,
   ⟨"cos", 1, unary (orNaN elementary.cos), "cos(x)"⟩,
   ⟨"tan", 1, unary (orNaN elementary.tan), "tan(x)"⟩,
   ⟨"atan", 1, unary (plain Float.atan), "atan(x)"⟩,
   ⟨"abs", 1, unary (plain Float.abs), "abs(x)"⟩,
   ⟨"min", 2, binary (plain₂ minimum), "min(x,y)"⟩,
   ⟨"max", 2, binary (plain₂ maximum), "max(x,y)"⟩,
   ⟨"sqrt", 1, unary (orNaN elementary.sqrt), "sqrt(x)"⟩,
   ⟨"log", 2, binary (log elementary), "log(x, base)"⟩,
   ⟨"ln", 1, unary fun x => log elementary x e, "ln(x)"⟩,
   ⟨"log10", 1, unary fun x => log elementary x 10.0, "log10(x)"⟩,
   ⟨"sign", 1, unary (plain sign), "sign(x)"⟩,
   ⟨"ceil", 1, unary (round elementary.ceil), "ceil(x)"⟩,
   ⟨"floor", 1, unary (round elementary.floor), "floor(x)"⟩]

/-- The registry of the catalog over given elementary operations. -/
def registryOver : Registry where
  operators := .ofList ((operators elementary).map fun operator => (operator.symbol, operator))
  functions := .ofList ((functions elementary).map fun function => (function.name, function))
  bindings := .ofList constants

end

def registry : Registry := registryOver .machine

/-- The registry of the catalog with further variables, which may not redefine its constants. -/
def registryWith (extra : Table String Decimal.Quantity) : Except SupplyError Registry :=
  registry.defineAll extra

end Calculator.Catalog

namespace Calculator

/-- Why an expression has no value. -/
inductive CalculationError where
  | supply (error : SupplyError)
  | parse (error : ParseError)
  | evaluation (cause : EvaluationFault)
deriving Repr, DecidableEq

/-- Compiles and evaluates an expression with variables layered over a registry. -/
def calculate (registry : Registry) (expression : String)
    (bindings : Table String Decimal.Quantity) : Except CalculationError Float := do
  let layered ← (registry.withNumbers bindings).mapError .supply
  let program ← (compile layered expression defaultMaxDepth).mapError .parse
  program.evaluate.mapError .evaluation

end Calculator
