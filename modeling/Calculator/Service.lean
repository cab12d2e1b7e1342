import Calculator.Settings.Basic
import Calculator.Catalog

/-!
# The service

Expressions are evaluated with the variables of the settings and, over them,
those of the request. A problem of the expression or of a variable's name is
part of the response. Every request builds its own registry, so requests do
not influence each other.
-/

namespace Calculator

open Decimal (Quantity)

/-- The outcome of an evaluation: a value, or the error that stands in its place. -/
structure Response where
  result : Option Float
  error : ParseError

namespace Response

def ofValue (value : Float) : Response := ⟨some value, .absent⟩

def ofError (error : ParseError) : Response := ⟨none, error⟩

def ok (response : Response) : Bool :=
  !response.error.isError

/-- The result as it is sent; values that are not finite are left out. -/
def sent (response : Response) : Option Float :=
  response.result.filter Float.isFinite

end Response

/-- Why a request gets no response. -/
inductive ServiceFault where
  | emptyExpression
  | overflow
  | evaluation (cause : EvaluationFault)
deriving Repr, DecidableEq

namespace Service

def merged (settings : Settings) (bindings : Table String Float) : Table String Quantity :=
  settings.bindings.overlay (bindings.mapValues .double)

def registry (settings : Settings) : Except SupplyError Registry :=
  Catalog.registry.withNumbers settings.bindings

def evaluateIn (stack : Nat) (registry : Registry) (expression : String) (maxDepth : Int) :
    Except ServiceFault Response :=
  match compile registry expression maxDepth with
  | .error error => .ok (.ofError error)
  | .ok program => ((program.evaluateWithin stack).map .ofValue).mapError .evaluation

/-- Evaluates with given elementary operations and a stack that holds so many nested pulls. -/
def evaluateWithin (elementary : Elementary) (stack : Nat) (settings : Settings)
    (expression : String) (bindings : Table String Float) : Except ServiceFault Response :=
  if expression = "" then .error .emptyExpression
  else match (Catalog.registryOver elementary).withNumbers (merged settings bindings) with
    | .error (.registry error) => .ok (.ofError (.malformed error.name))
    | .error .overflow => .error .overflow
    | .ok registry => evaluateIn stack registry expression settings.maxDepth

def evaluate (settings : Settings) (expression : String) (bindings : Table String Float) :
    Except ServiceFault Response :=
  evaluateWithin .machine stackLimit settings expression bindings

def listVariables (settings : Settings) : Except SupplyError (List (String × Float)) :=
  (registry settings).map fun registry => registry.bindings.entries

def listFunctions (settings : Settings) : Except SupplyError (List Function) :=
  (registry settings).map fun registry => registry.functions.entries.map Prod.snd

def listOperators (settings : Settings) : Except SupplyError (List Operator) :=
  (registry settings).map fun registry => registry.operators.entries.map Prod.snd

end Service

end Calculator
