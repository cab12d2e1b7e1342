import Calculator.Client
import Calculator.CommandLine.Command
import Calculator.Console.Table
import Calculator.Settings.Loading

/-!
# Running a command line

A command line is run against the files and the environment around it and
ends with an exit code and a text for the console: zero for success, one for
an error of the expression, two for a line or settings that make no sense
and three for a service that fails.
-/

namespace Calculator.CommandLine

/-- A service that runs elsewhere, and what its users know about it. -/
structure Remote where
  settings : Settings
  /-- The address of the service. -/
  address : String
  /-- Where the meaning of a status code is explained. -/
  statusPages : String

structure Surroundings where
  directory : Settings.Directory
  environment : Settings.Environment
  /-- The service elsewhere, if it can be reached. -/
  remote : Option Remote

/-- Why a run breaks down. -/
inductive Crash where
  | loading (fault : Settings.LoadFault)
  | client (fault : Client.Fault)
  | service (fault : ServiceFault)
  | listing (error : SupplyError)
deriving Repr, DecidableEq

/-- A service that was asked to run: its host, its port and its log level. -/
structure Served where
  host : String
  port : Int
  logLevel : String

structure Outcome where
  exitCode : Nat
  output : String
  crash : Option Crash
  served : Option Served

namespace Outcome

def exit (code : Nat) (output : String) : Outcome := ⟨code, output, none, none⟩

def crashed (output : String) (cause : Crash) : Outcome := ⟨1, output, some cause, none⟩

def usage : Outcome := exit 2 ""

end Outcome

def versionLine : String := "infixcalc 0.0.0\n"

/-- The text of a result, which may not have arrived. -/
def resultText : Option Float → String
  | some x => Decimal.Layout.display.text x
  | none => "None"

def responseText (json : Bool) (response : Response) : String :=
  if json then response.toJson.compact ++ "\n"
  else if response.ok then Console.line (resultText response.result).toList
  else Console.labelled "Error:" response.error.describe

def report (before : String) (json : Bool) (response : Response) : Outcome :=
  .exit (if response.ok then 0 else 1) (before ++ responseText json response)

section

variable (elementary : Elementary)

/-- The compiled form of an expression; nothing when there is none. -/
def programText (settings : Settings) (evaluation : Evaluation) : String :=
  match (Catalog.registryOver elementary).withNumbers
    (Service.merged settings evaluation.bindings) with
  | .error _ => ""
  | .ok registry =>
      match compile registry evaluation.expression settings.maxDepth with
      | .error _ => ""
      | .ok program => Console.labelled "postfix:" program.postfixText

/-- What is shown before the result of an evaluation. -/
def preamble (settings : Settings) (evaluation : Evaluation) : String :=
  if evaluation.showProgram then programText elementary settings evaluation else ""

/-- Evaluates with given elementary operations and a stack that holds so many nested pulls. -/
def evaluateHere (stack : Nat) (settings : Settings) (evaluation : Evaluation) : Outcome :=
  let before := preamble elementary settings evaluation
  match Service.evaluateWithin elementary stack settings evaluation.expression
    evaluation.bindings with
  | .ok response => report before evaluation.json response
  | .error .emptyExpression => .exit 2 before
  | .error fault => .crashed before (.service fault)

end

/-- What a service that fails is reported with. -/
def statusMessage (remote : Remote) (status : Nat) : String :=
  "Server error '" ++ toString status ++ " Internal Server Error' for url '" ++ remote.address
    ++ Http.Route.evaluate.path ++ "'\nFor more information check: " ++ remote.statusPages
    ++ toString status

/-- Asks a service for an evaluation. A request that cannot be sent breaks down before that. -/
def evaluateThere (elementary : Elementary) (stack : Nat) (remote : Remote)
    (evaluation : Evaluation) : Outcome :=
  match Client.evaluateWithin elementary stack remote.settings evaluation.expression
    evaluation.quantities with
  | .ok response => report "" evaluation.json response
  | .error (.status status) =>
      .exit 3 (Console.labelled "Remote error:" (statusMessage remote status))
  | .error fault => .crashed "" (.client fault)

def evaluateNowhere (evaluation : Evaluation) : Outcome :=
  match Client.request evaluation.expression evaluation.quantities with
  | .ok _ => .exit 3 (Console.labelled "Remote error:" "[Errno 111] Connection refused")
  | .error fault => .crashed "" (.client fault)

open Console in
def functionTable (functions : List Function) : String :=
  table "Functions" [
    ⟨"Name", .left, functions.map fun function => cell function.name⟩,
    ⟨"Usage", .left, functions.map fun function => cell function.usage⟩,
    ⟨"Args", .right, functions.map fun function => cell (toString function.arity)⟩]

open Console in
def operatorTable (operators : List Operator) : String :=
  table "Operators" [
    ⟨"Symbol", .left, operators.map fun operator => [operator.symbol]⟩,
    ⟨"Usage", .left, operators.map fun operator => cell operator.usage⟩,
    ⟨"Precedence", .left, operators.map fun operator => cell operator.precedence.label⟩]

open Console in
def variableTable (bindings : List (String × Float)) : String :=
  table "Variables" [
    ⟨"Name", .left, bindings.map fun entry => cell entry.1⟩,
    ⟨"Value", .right, bindings.map fun entry => cell (Decimal.Layout.display.text entry.2)⟩]

def showListing {α : Type} (render : α → String) : Except SupplyError α → Outcome
  | .ok entries => .exit 0 (render entries)
  | .error error => .crashed "" (.listing error)

def served (settings : Settings) (serving : Serving) : Served where
  host := serving.host.getD settings.host
  port := serving.port.getD settings.port
  logLevel := settings.logLevel.lowerName

section

variable (elementary : Elementary) (stack : Nat)

def Command.run (surroundings : Surroundings) (settings : Settings) : Command → Outcome
  | .evaluate evaluation =>
      if evaluation.remote then
        surroundings.remote.elim (evaluateNowhere evaluation) fun remote =>
          evaluateThere elementary stack remote evaluation
      else evaluateHere elementary stack settings evaluation
  | .listFunctions => showListing functionTable (Service.listFunctions settings)
  | .listOperators => showListing operatorTable (Service.listOperators settings)
  | .listVariables => showListing variableTable (Service.listVariables settings)
  | .serve serving => { Outcome.exit 0 "" with served := some (served settings serving) }
  | .help => .exit 0 ""

/-- Loads the settings and runs a command with the arguments after its name. -/
def runCommand (surroundings : Surroundings) (path : Option String) (name : CommandName)
    (arguments : List String) : Outcome :=
  match Settings.load surroundings.directory path surroundings.environment with
  | .error (.report error) => .exit 2 (Console.labelled "Config error:" error.message)
  | .error fault => .crashed "" (.loading fault)
  | .ok settings =>
      match name.command? arguments with
      | some command => command.run elementary stack surroundings settings
      | none => .usage

def runWithin (surroundings : Surroundings) (arguments : List String) : Outcome :=
  match Parsed.ofArguments globalOptions false arguments with
  | .error _ => .usage
  | .ok parsed =>
      match parsed.given.find? fun option => option.1 = .version ∨ option.1 = .help with
      | some (.version, _) => .exit 0 versionLine
      | some _ => .exit 0 ""
      | none =>
          match parsed.operands with
          | [] => .usage
          | text :: rest =>
              match CommandName.ofText? text with
              | none => .usage
              | some name =>
                  runCommand elementary stack surroundings (parsed.value? .config) name rest

end

/-- Runs a command line with the operations and the stack of the machine. -/
def run (surroundings : Surroundings) (arguments : List String) : Outcome :=
  runWithin .machine stackLimit surroundings arguments

end Calculator.CommandLine
