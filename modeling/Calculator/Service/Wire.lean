import Calculator.Json.Value
import Calculator.Service

/-!
# Requests and responses as JSON

The shapes in which requests and responses travel. A request names an
expression that is not empty and may list variables; the value of a variable
may be anything that stands for a number. A response that is read back is
the one that was sent, less a result that is not finite.
-/

namespace Calculator

open Json (Value)

/-- Drops single underscores that stand neither first nor last. -/
def innerUnderscores? (characters : List Char) : Option (List Char) :=
  let doubled := (characters.zip (characters.drop 1)).any fun both => both == ('_', '_')
  if characters.head? = some '_' ∨ characters.getLast? = some '_' ∨ doubled then none
  else some (characters.filter (· ≠ '_'))

/-- A blank that separates words; the separators among the control characters do not. -/
def isSpacing (c : Char) : Bool :=
  Text.isBlank c && !(0x1C ≤ c.toNat && c.toNat ≤ 0x1F)

/-- The double of a text that stands for a number, with blanks around it or underscores inside. -/
def looseFloat? (text : String) : Option Float :=
  let trimmed := Decimal.Numeral.ofChars? (Text.trimBy isSpacing text.toList)
  let joined := (innerUnderscores? text.toList).bind Decimal.Numeral.ofChars?
  (trimmed.orElse fun _ => joined).map Decimal.Numeral.toFloat

/-- The double that a value stands for. -/
def floatOf? : Value → Option Float
  | .integer value => Decimal.double? value
  | .number x => some x
  | .boolean value => some (if value then 1.0 else 0.0)
  | .text text => looseFloat? text
  | _ => none

def memberFloat? (members : List (String × Value)) (key : String) : Option Float :=
  (Value.member? members key).bind floatOf?

def memberText? (members : List (String × Value)) (key : String) : Option String :=
  match Value.member? members key with
  | some (.text text) => some text
  | _ => none

namespace VariableEntry

def ofJson? : Value → Option (String × Float)
  | .object members => do return (← memberText? members "name", ← memberFloat? members "value")
  | _ => none

def toJson (entry : String × Float) : Value :=
  .object [("name", .text entry.1), ("value", .number entry.2)]

end VariableEntry

/-- A request for an evaluation; of two variables with one name the later counts. -/
structure EvaluationRequest where
  expression : String
  bindings : List (String × Float)

namespace EvaluationRequest

def bindings? : Option Value → Option (List (String × Float))
  | none => some []
  | some (.list values) => values.mapM VariableEntry.ofJson?
  | some _ => none

def ofJson? : Value → Option EvaluationRequest
  | .object members => do
      let expression ← memberText? members "expression"
      let bindings ← bindings? (Value.member? members "variables")
      if expression = "" then none else return ⟨expression, bindings⟩
  | _ => none

def toJson (request : EvaluationRequest) : Value :=
  .object [("expression", .text request.expression),
    ("variables", .list (request.bindings.map VariableEntry.toJson))]

end EvaluationRequest

namespace Response

def toJson (response : Response) : Value :=
  .object [
    ("result", match response.sent with
      | some x => .number x
      | none => .null),
    ("error", .object [("target_type", .text response.error.kind.label),
      ("target", .text response.error.target)])]

def error? : Value → Option ParseError
  | .object members => do
      let kind ← (memberText? members "target_type").bind ErrorKind.ofLabel?
      return ⟨kind, ← memberText? members "target"⟩
  | _ => none

def result? : Value → Option (Option Float)
  | .null => some none
  | value => (floatOf? value).map some

def ofJson? : Value → Option Response
  | .object members => do
      let result ← (Value.member? members "result").bind result?
      let error ← (Value.member? members "error").bind error?
      return ⟨result, error⟩
  | _ => none

end Response

end Calculator
