import Calculator.Json.Reader
import Calculator.Service.Wire

/-!
# The service over requests with paths

Each route of the service answers one path and one method. Errors of an
expression are part of a successful answer; a body that is no request is
refused, and an evaluation that breaks down is an error of the server.
-/

namespace Calculator.Http

open Json (Value)

inductive Route where
  | evaluate
  | listVariables
  | listFunctions
  | listOperators
  | health
deriving Repr, DecidableEq

namespace Route

def all : List Route := [.evaluate, .listVariables, .listFunctions, .listOperators, .health]

def path : Route → String
  | .evaluate => "/api/evaluate"
  | .listVariables => "/api/variables"
  | .listFunctions => "/api/functions"
  | .listOperators => "/api/operators"
  | .health => "/health"

def method : Route → String
  | .evaluate => "POST"
  | _ => "GET"

/--
The route of a path, whose first slash may be left out. What follows the path proper does not
count, nor do slashes at its end.
-/
def ofPath? (path : String) : Option Route :=
  let proper := path.toList.takeWhile fun c => c ≠ '?' ∧ c ≠ '#'
  let bare := (proper.reverse.dropWhile (· == '/')).reverse
  all.find? fun route => route.path.toList == bare || route.path.toList == '/' :: bare

end Route

structure Request where
  method : String
  path : String
  body : String

structure Reply where
  status : Nat
  /-- Present when the request succeeded. -/
  body : Option Value

namespace Reply

def success (body : Value) : Reply := ⟨200, some body⟩

def failure (status : Nat) : Reply := ⟨status, none⟩

end Reply

/-- A variable as it is listed; a value that is not finite is left out. -/
def variableJson (entry : String × Float) : Value :=
  .object [("name", .text entry.1),
    ("value", if entry.2.isFinite then .number entry.2 else .null)]

def functionJson (function : Function) : Value :=
  .object [("name", .text function.name), ("usage", .text function.usage),
    ("arity", .integer function.arity)]

def operatorJson (operator : Operator) : Value :=
  .object [("symbol", .text operator.symbol.toString), ("usage", .text operator.usage),
    ("precedence", .text operator.precedence.label)]

/--
Answers a request for an evaluation whose body has been read, with given elementary operations and
a stack that holds so many nested pulls.
-/
def evaluateWithin (elementary : Elementary) (stack : Nat) (settings : Settings) (body : Value) :
    Except SupplyError Reply :=
  match EvaluationRequest.ofJson? body with
  | none => .ok (.failure 422)
  | some request =>
      match Service.evaluateWithin elementary stack settings request.expression
        (.ofList request.bindings) with
      | .ok response => .ok (.success response.toJson)
      | .error .emptyExpression => .ok (.failure 422)
      | .error (.evaluation _) => .ok (.failure 500)
      | .error .overflow => .error .overflow

def evaluate (settings : Settings) (body : Value) : Except SupplyError Reply :=
  evaluateWithin .machine stackLimit settings body

def evaluateText (settings : Settings) (body : String) : Except SupplyError Reply :=
  match Json.read body with
  | .ok value => evaluate settings value
  | .error .malformed => .ok (.failure 422)
  | .error .tooLarge => .ok (.failure 400)

def listing {α : Type} (encode : α → Value) (entries : Except SupplyError (List α)) :
    Except SupplyError Reply :=
  entries.map fun values => .success (.list (values.map encode))

def Route.answer (settings : Settings) (body : String) : Route → Except SupplyError Reply
  | .evaluate => evaluateText settings body
  | .listVariables => listing variableJson (Service.listVariables settings)
  | .listFunctions => listing functionJson (Service.listFunctions settings)
  | .listOperators => listing operatorJson (Service.listOperators settings)
  | .health =>
      .ok (.success (.object [("status", .text "healthy"), ("service", .text "infixcalc")]))

/--
Answers a request, whose method may be in letters of either case. It breaks down only when the
settings hold variables that no registry takes.
-/
def respond (settings : Settings) (request : Request) : Except SupplyError Reply :=
  match Route.ofPath? request.path with
  | none => .ok (.failure 404)
  | some route =>
      if request.method.map Char.toUpper = route.method then route.answer settings request.body
      else .ok (.failure 405)

end Calculator.Http
