import Calculator.Http

/-!
# Clients of a service

A client checks a request before it is sent and reads the response that
comes back. Numbers that are not finite cannot be sent, and a result that is
not finite does not arrive.
-/

namespace Calculator.Client

open Decimal (Quantity)

inductive Fault where
  /-- The request or the response does not have its shape. -/
  | invalid
  | notFinite
  | status (code : Nat)
  | server (error : SupplyError)
deriving Repr, DecidableEq

/-- The variables of a request as doubles. -/
def numbers? (bindings : Table String Quantity) : Option (List (String × Float)) :=
  bindings.entries.mapM fun entry => entry.2.toDouble?.map fun x => (entry.1, x)

def request (expression : String) (bindings : Table String Quantity) :
    Except Fault EvaluationRequest :=
  match numbers? bindings with
  | none => .error .invalid
  | some numbers =>
      if expression = "" then .error .invalid
      else if numbers.all fun number => number.2.isFinite then .ok ⟨expression, numbers⟩
      else .error .notFinite

/-- Reads the body of a successful reply. -/
def accept (reply : Http.Reply) : Except Fault Json.Value :=
  match reply.body with
  | some body => .ok body
  | none => .error (.status reply.status)

/--
Asks the service of the settings for an evaluation. The service runs with the elementary operations
and the stack that are given.
-/
def evaluateWithin (elementary : Elementary) (stack : Nat) (settings : Settings)
    (expression : String) (bindings : Table String Quantity) : Except Fault Response := do
  let request ← request expression bindings
  let reply ← (Http.evaluateWithin elementary stack settings request.toJson).mapError .server
  match Response.ofJson? (← accept reply) with
  | some response => return response
  | none => throw .invalid

def evaluate (settings : Settings) (expression : String) (bindings : Table String Quantity) :
    Except Fault Response :=
  evaluateWithin .machine stackLimit settings expression bindings

/-- Asks the service of the settings for the listing of a route. -/
def listing (settings : Settings) (route : Http.Route) : Except Fault Json.Value := do
  accept (← (Http.respond settings ⟨route.method, route.path, ""⟩).mapError .server)

/-- The variables of the service; a value that did not arrive makes the listing invalid. -/
def listVariables (settings : Settings) : Except Fault (List (String × Float)) := do
  match ← listing settings .listVariables with
  | .list values =>
      match values.mapM VariableEntry.ofJson? with
      | some entries => return entries
      | none => throw .invalid
  | _ => throw .invalid

end Calculator.Client
