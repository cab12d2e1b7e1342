import Calculator.CommandLine.Arguments
import Calculator.Decimal.Integer
import Calculator.Table
import Calculator.Text.Blank

/-!
# Commands

What a command line asks for. Options before the command concern all of
them; every command has options of its own. A line that asks for nothing
sensible is a usage error.
-/

namespace Calculator.CommandLine

inductive GlobalOption where
  | config
  | logLevel
  | version
  | help
deriving Repr, DecidableEq

def globalOptions : List (OptionSpec GlobalOption) :=
  [⟨.config, ["--config", "-c"], true⟩, ⟨.logLevel, ["--log-level"], true⟩,
   ⟨.version, ["--version"], false⟩, ⟨.help, ["--help"], false⟩]

inductive CommandName where
  | eval
  | listFunctions
  | listOperators
  | listVariables
  | serve
deriving Repr, DecidableEq

namespace CommandName

def all : List CommandName := [.eval, .listFunctions, .listOperators, .listVariables, .serve]

def text : CommandName → String
  | .eval => "eval"
  | .listFunctions => "functions"
  | .listOperators => "operators"
  | .listVariables => "variables"
  | .serve => "serve"

def ofText? (text : String) : Option CommandName :=
  all.find? fun name => name.text == text

end CommandName

/-- The options of all commands. -/
inductive CommandOption where
  | variable
  | remote
  | json
  | showProgram
  | host
  | port
  | help
deriving Repr, DecidableEq

def CommandName.options : CommandName → List (OptionSpec CommandOption)
  | .eval =>
      [⟨.variable, ["--var", "-v"], true⟩, ⟨.remote, ["--remote", "-r"], true⟩,
       ⟨.json, ["--json"], false⟩, ⟨.showProgram, ["--show-program"], false⟩,
       ⟨.help, ["--help"], false⟩]
  | .serve =>
      [⟨.host, ["--host"], true⟩, ⟨.port, ["--port", "-p"], true⟩, ⟨.help, ["--help"], false⟩]
  | .listFunctions | .listOperators | .listVariables => [⟨.help, ["--help"], false⟩]

/-- What to evaluate and how to show it. -/
structure Evaluation where
  expression : String
  bindings : Table String Float
  /-- Ask a service that runs elsewhere. -/
  remote : Bool
  json : Bool
  showProgram : Bool

def Evaluation.quantities (evaluation : Evaluation) : Table String Decimal.Quantity :=
  evaluation.bindings.mapValues .double

/-- Where to serve; what is left out comes from the settings. -/
structure Serving where
  host : Option String
  port : Option Int

inductive Command where
  | evaluate (evaluation : Evaluation)
  | listFunctions
  | listOperators
  | listVariables
  | serve (serving : Serving)
  | help

/-- An option value that says something. -/
def nonempty? (value : Option String) : Option String :=
  value.filter (· ≠ "")

/-- A name, blanks around it apart, an equals sign and a number. -/
def assignment? (text : String) : Option (String × Float) :=
  match splitEquals text.toList with
  | (left, some right) =>
      let name := Text.trimBy Text.isBlank left
      if name = [] then none
      else (Decimal.float? (String.ofList right)).map fun x => (String.ofList name, x)
  | (_, none) => none

def Evaluation.ofParsed (parsed : Parsed CommandOption) (expression : String)
    (bindings : List (String × Float)) : Evaluation where
  expression := expression
  bindings := .ofList bindings
  remote := (nonempty? (parsed.value? .remote)).isSome
  json := parsed.has .json
  showProgram := parsed.has .showProgram

def evaluation? (parsed : Parsed CommandOption) : Option Command := do
  let [expression] := parsed.operands | none
  let bindings ← (parsed.values .variable).mapM assignment?
  return .evaluate (.ofParsed parsed expression bindings)

/-- The last port given; one that is no integer is a usage error. -/
def port? (parsed : Parsed CommandOption) : Option (Option Int) :=
  match parsed.value? .port with
  | none => some none
  | some text => (Decimal.integer? text).map some

def serving? (parsed : Parsed CommandOption) : Option Command := do
  let [] := parsed.operands | none
  return .serve ⟨nonempty? (parsed.value? .host), ← port? parsed⟩

def CommandName.command? (name : CommandName) (arguments : List String) : Option Command := do
  let .ok parsed := Parsed.ofArguments name.options true arguments | none
  if parsed.has .help then return .help
  match name with
  | .eval => evaluation? parsed
  | .serve => serving? parsed
  | .listFunctions => if parsed.operands = [] then some .listFunctions else none
  | .listOperators => if parsed.operands = [] then some .listOperators else none
  | .listVariables => if parsed.operands = [] then some .listVariables else none

end Calculator.CommandLine
