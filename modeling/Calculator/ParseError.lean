/-!
# Parse errors

The first problem of an expression, as the kind of the element that caused it
and the text of that element. No error is a kind of its own, so that every
answer can carry one.
-/

namespace Calculator

inductive ErrorKind where
  | function
  | variable
  | number
  | functionVariable
  | other
  | none
deriving Repr, DecidableEq

namespace ErrorKind

def label : ErrorKind → String
  | .function => "Function"
  | .variable => "Variable"
  | .number => "Number"
  | .functionVariable => "FunctionVariable"
  | .other => "Other"
  | .none => "None"

def all : List ErrorKind := [.function, .variable, .number, .functionVariable, .other, .none]

def ofLabel? (label : String) : Option ErrorKind :=
  all.find? fun kind => kind.label == label

end ErrorKind

structure ParseError where
  kind : ErrorKind
  target : String
deriving Repr, DecidableEq

namespace ParseError

/-- The structure of the expression is wrong; the target may be empty. -/
def malformed (target : String) : ParseError := ⟨.other, target⟩

def absent : ParseError := ⟨.none, ""⟩

def isError (error : ParseError) : Bool :=
  error.kind ≠ .none

def describe (error : ParseError) : String :=
  match error.kind with
  | .function => "Unknown function '" ++ error.target ++ "'"
  | .variable => "Unknown variable '" ++ error.target ++ "'"
  | .number => "Invalid number '" ++ error.target ++ "'"
  | .functionVariable => "Function '" ++ error.target ++ "' used without arguments"
  | .other =>
      if error.target = "" then "Malformed expression"
      else "Malformed expression near '" ++ error.target ++ "'"
  | .none => "No error"

end ParseError

end Calculator
