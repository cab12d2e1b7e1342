import Calculator.Item
import Calculator.Table
import Calculator.Text.Blank
import Calculator.Text.Digit
import Calculator.Text.Quoted
import Calculator.Decimal.Integer

/-!
# Registries

A registry holds the operators, functions and variables that expressions may
use, each in the order of registration. It refuses names that could never be
read back out of an expression: a name must be free of blanks, brackets,
separators and the symbols of the operators known so far, and must not look
like a number.
-/

namespace Calculator

/-- The characters that structure an expression. -/
def isReserved (c : Char) : Bool :=
  c = '(' || c = ')' || c = ','

theorem isReserved_eq_false_iff {c : Char} :
    isReserved c = false ↔ c ≠ '(' ∧ c ≠ ')' ∧ c ≠ ',' := by
  simp [isReserved, and_assoc]

/-- The characters of an unsigned number without an exponent. -/
def isNumberChar (c : Char) : Bool :=
  Text.isDigit c || c = '.'

inductive NameKind where
  | function
  | variable
deriving Repr, DecidableEq

def NameKind.label : NameKind → String
  | .function => "function"
  | .variable => "variable"

def NameKind.capitalized : NameKind → String
  | .function => "Function"
  | .variable => "Variable"

/-- Why a definition is refused. -/
inductive RegistryError where
  | invalidSymbol (symbol : String)
  | numericSymbol (symbol : String)
  | operandCount (symbol : String) (arity : Int)
  | duplicateOperator (symbol : String)
  | emptyName (kind : NameKind)
  | invalidCharacter (c : Char) (kind : NameKind) (name : String)
  | numericName (kind : NameKind) (name : String)
  | noArguments (name : String)
  | duplicateFunction (name : String)
  | duplicateVariable (name : String)
deriving Repr, DecidableEq

namespace RegistryError

/-- The refused symbol or name. -/
def name : RegistryError → String
  | .invalidSymbol symbol | .numericSymbol symbol | .operandCount symbol _
  | .duplicateOperator symbol => symbol
  | .emptyName _ => ""
  | .invalidCharacter _ _ name | .numericName _ name | .noArguments name
  | .duplicateFunction name | .duplicateVariable name => name

/-- The key is already taken. -/
def isDuplicate : RegistryError → Bool
  | .duplicateOperator _ | .duplicateFunction _ | .duplicateVariable _ => true
  | _ => false

open Text (quoted) in
def message : RegistryError → String
  | .invalidSymbol symbol => "Invalid operator symbol: " ++ quoted symbol
  | .numericSymbol symbol => "Operator symbol clashes with number syntax: " ++ quoted symbol
  | .operandCount symbol arity =>
      "Operator " ++ quoted symbol ++ " must take 2 operands, not " ++ toString arity
  | .duplicateOperator symbol => "Operator already registered: " ++ quoted symbol
  | .emptyName kind => "Empty " ++ kind.label ++ " name"
  | .invalidCharacter c kind name =>
      "Invalid character " ++ quoted c.toString ++ " in " ++ kind.label ++ " name " ++ quoted name
  | .numericName kind name => kind.capitalized ++ " name looks like a number: " ++ quoted name
  | .noArguments name => "Function " ++ quoted name ++ " must take at least 1 argument"
  | .duplicateFunction name => "Function already registered: " ++ quoted name
  | .duplicateVariable name => "Variable already defined: " ++ quoted name

end RegistryError

structure Registry where
  operators : Table Char Operator
  functions : Table String Function
  /-- The variables and their values. -/
  bindings : Table String Float

namespace Registry

def empty : Registry := ⟨.empty, .empty, .empty⟩

def isOperator (registry : Registry) (c : Char) : Bool :=
  registry.operators.contains c

/-- The characters that end a name in an expression or can have no place in it. -/
def isBarred (registry : Registry) (c : Char) : Bool :=
  Text.isBlank c || isReserved c || registry.isOperator c

def checkName (registry : Registry) (kind : NameKind) (name : String) :
    Except RegistryError Unit :=
  if name = "" then .error (.emptyName kind)
  else match name.toList.find? registry.isBarred with
    | some c => .error (.invalidCharacter c kind name)
    | none => if name.toList.all isNumberChar then .error (.numericName kind name) else .ok ()

/-- A symbol is a single character that no other part of an expression uses. -/
def checkSymbol (symbol : String) : Except RegistryError Char :=
  match symbol.toList with
  | [c] =>
      if Text.isBlank c || isReserved c then .error (.invalidSymbol symbol)
      else if isNumberChar c then .error (.numericSymbol symbol)
      else .ok c
  | _ => .error (.invalidSymbol symbol)

def registerOperator (registry : Registry) (symbol : String) (precedence : Precedence)
    (arity : Int) (rule : Rule) (usage : String) : Except RegistryError Registry := do
  let c ← checkSymbol symbol
  if arity ≠ 2 then throw (.operandCount symbol arity)
  if registry.operators.contains c then throw (.duplicateOperator symbol)
  return { registry with operators := registry.operators.insert c ⟨c, precedence, rule, usage⟩ }

def registerFunction (registry : Registry) (name : String) (arity : Int) (rule : Rule)
    (usage : String) : Except RegistryError Registry := do
  registry.checkName .function name
  if arity < 1 then throw (.noArguments name)
  if registry.functions.contains name then throw (.duplicateFunction name)
  let function : Function := ⟨name, arity.toNat, rule, usage⟩
  return { registry with functions := registry.functions.insert name function }

/-- Gives a variable its value, whether or not it had one. -/
def setVariable (registry : Registry) (name : String) (value : Float) :
    Except RegistryError Registry := do
  registry.checkName .variable name
  return { registry with bindings := registry.bindings.insert name value }

/-- Gives a new variable its value. -/
def defineVariable (registry : Registry) (name : String) (value : Float) :
    Except RegistryError Registry := do
  registry.checkName .variable name
  if registry.bindings.contains name then throw (.duplicateVariable name)
  return { registry with bindings := registry.bindings.insert name value }

/-- Layers variables over those of the registry. -/
def withVariables (registry : Registry) (values : Table String Float) :
    Except RegistryError Registry :=
  values.entries.foldlM (fun derived entry => derived.setVariable entry.1 entry.2) registry

end Registry

end Calculator
