import Calculator.Catalog
import Calculator.Decimal.Truncate
import Calculator.Settings.Basic
import Calculator.Settings.Value
import Calculator.Text.Occurrence

/-!
# Loading settings

Settings come from a configuration file and are overridden one by one by the
variables of the environment that are not empty. A value of a wrong kind or
out of range is reported with the key it stands under, also when the
environment overrides it. A section that is no table is read as the text or
the list it is: it only fails when the key occurs in it.
-/

namespace Calculator.Settings

inductive LoadError where
  | fileNotFound (path : String)
  | unreadable (path reason : String)
  | notAnInteger (key shown : String)
  | belowMinimum (key : String) (minimum number : Int)
  | aboveMaximum (key : String) (maximum number : Int)
  | notALevel (key shown : String)
  | variablesNotATable
  | variableNotANumber (name shown : String)
  | invalidVariable (error : RegistryError)
deriving Repr, DecidableEq

def LoadError.message : LoadError → String
  | .fileNotFound path => "Config file not found: " ++ path
  | .unreadable path reason => "Cannot read " ++ path ++ ": " ++ reason
  | .notAnInteger key shown => key ++ " must be an integer, got " ++ shown
  | .belowMinimum key minimum number =>
      key ++ " must be at least " ++ toString minimum ++ ", got " ++ toString number
  | .aboveMaximum key maximum number =>
      key ++ " must be at most " ++ toString maximum ++ ", got " ++ toString number
  | .notALevel key shown =>
      let names := LogLevel.all.map fun level => Text.quoted level.name
      key ++ " must be one of [" ++ ", ".intercalate names ++ "], got " ++ shown
  | .variablesNotATable => "[variables] must be a table of name = number"
  | .variableNotANumber name shown =>
      "Variable " ++ Text.quoted name ++ " must be a number, got " ++ shown
  | .invalidVariable error => "Invalid variable in [variables]: " ++ error.message

/-- The texts between the slashes of a path. -/
def pathSegments (path : String) : List String :=
  (path.toList.splitOn '/').map String.ofList

/-- The message without the reason and the directories of a file that cannot be read. -/
def LoadError.headline : LoadError → String
  | .unreadable path _ => "Cannot read " ++ (pathSegments path).getLastD path
  | error => error.message

/-- How loading ends without settings. -/
inductive LoadFault where
  | report (error : LoadError)
  /-- A section is neither a table nor a text or list without the key. -/
  | wrongKind
  /-- A number has no integer part, is out of the range of doubles or has too many digits. -/
  | overflow
deriving Repr, DecidableEq

/-- The text of a value, unless an integer in it has too many digits. -/
def shown (value : Value) : Except LoadFault String :=
  if value.isShowable then .ok value.plain else .error .overflow

/-- Reports a value, which must be shown for that. -/
def refuse {α : Type} (value : Value) (error : LoadError) : Except LoadFault α := do
  let _ ← shown value
  throw (.report error)

/-- The integer a value stands for: integers, integer parts and texts of integers. -/
def integerOf (key : String) (value : Value) : Except LoadFault Int :=
  let refused := refuse value (.notAnInteger key value.literal)
  match value with
  | .integer number => .ok number
  | .float x =>
      if x.isNaN then refused
      else if x.isInf then .error .overflow
      else .ok (Decimal.truncate x)
  | .text text =>
      match Decimal.integer? text with
      | some number => .ok number
      | none => refused
  | _ => refused

def depthOf (key : String) (value : Value) : Except LoadFault Int := do
  let number ← integerOf key value
  if number < 1 then refuse (.integer number) (.belowMinimum key 1 number)
  if (maxDepthLimit : Int) < number then
    refuse (.integer number) (.aboveMaximum key maxDepthLimit number)
  return number

def portOf (key : String) (value : Value) : Except LoadFault Nat := do
  let number ← integerOf key value
  if number < 0 then refuse (.integer number) (.belowMinimum key 0 number)
  return number.toNat

def levelOf (key : String) (value : Value) : Except LoadFault LogLevel := do
  match LogLevel.ofText? (← shown value) with
  | some level => return level
  | none => throw (.report (.notALevel key value.literal))

def variableOf (name : String) (value : Value) : Except LoadFault Float :=
  match value with
  | .integer number =>
      match Decimal.double? number with
      | some x => .ok x
      | none => .error .overflow
  | .float x => .ok x
  | _ => refuse value (.variableNotANumber name value.literal)

/-- The variables of a table, every one of which an expression could use. -/
def variablesOf (value : Value) : Except LoadFault (Table String Float) := do
  let .table entries := value | throw (.report .variablesNotATable)
  let numbers ← entries.mapM fun entry => do return (entry.1, ← variableOf entry.1 entry.2)
  let bindings := Table.ofList numbers
  let _ ← (Catalog.registry.withVariables bindings).mapError fun error =>
    LoadFault.report (.invalidVariable error)
  return bindings

/-- A file as the entries of its table, or the reason why it cannot be read. -/
inductive File where
  | document (entries : List (String × Value))
  | unreadable (reason : String)

/-- The values that stand under a key of a section, which may be missing. -/
def lookUp (section? : Option Value) (key : String) : Except LoadFault (Option Value) :=
  match section? with
  | none => .ok none
  | some (.table entries) => .ok (entries.lookup key)
  | some (.text text) =>
      if Text.occursIn key.toList text.toList then .error .wrongKind else .ok none
  | some (.list values) =>
      if values.any fun value => match value with
        | .text text => text == key
        | _ => false
      then .error .wrongKind else .ok none
  | some _ => .error .wrongKind

/-- Replaces a setting by what a value stands for, when there is a value. -/
def override {α : Type} (settings : Settings) (value? : Option Value)
    (read : Value → Except LoadFault α) (set : α → Settings) : Except LoadFault Settings :=
  match value? with
  | none => .ok settings
  | some value => (read value).map set

def withDepth (settings : Settings) (key : String) (value? : Option Value) :
    Except LoadFault Settings :=
  settings.override value? (depthOf key) fun depth => { settings with maxDepth := depth }

def withHost (settings : Settings) (value? : Option Value) : Except LoadFault Settings :=
  settings.override value? shown fun host => { settings with host := host }

def withPort (settings : Settings) (key : String) (value? : Option Value) :
    Except LoadFault Settings :=
  settings.override value? (portOf key) fun port => { settings with port := port }

def withLevel (settings : Settings) (key : String) (value? : Option Value) :
    Except LoadFault Settings :=
  settings.override value? (levelOf key) fun level => { settings with logLevel := level }

def withTable (settings : Settings) (value? : Option Value) : Except LoadFault Settings :=
  settings.override value? variablesOf fun bindings =>
    { settings with bindings := bindings.mapValues .double }

/-- The settings of a configuration file. -/
def ofDocument (entries : List (String × Value)) : Except LoadFault Settings := do
  let engine := entries.lookup "engine"
  let server := entries.lookup "server"
  let logging := entries.lookup "logging"
  let settings ← Settings.default.withDepth "engine.max_depth" (← lookUp engine "max_depth")
  let settings ← settings.withHost (← lookUp server "host")
  let settings ← settings.withPort "server.port" (← lookUp server "port")
  let settings ← settings.withLevel "logging.level" (← lookUp logging "level")
  settings.withTable (entries.lookup "variables")

/-- The variables of an environment. -/
abbrev Environment := String → Option String

def Environment.value? (environment : Environment) (name : String) : Option Value :=
  match environment name with
  | none | some "" => none
  | some text => some (.text text)

def withEnvironment (settings : Settings) (environment : Environment) :
    Except LoadFault Settings := do
  let named (name : String) := environment.value? name
  let settings ← settings.withDepth "INFIXCALC_MAX_DEPTH" (named "INFIXCALC_MAX_DEPTH")
  let settings ← settings.withHost (named "INFIXCALC_HOST")
  let settings ← settings.withPort "INFIXCALC_PORT" (named "INFIXCALC_PORT")
  settings.withLevel "INFIXCALC_LOG_LEVEL" (named "INFIXCALC_LOG_LEVEL")

/-- The file that is read when none is named. -/
def standardFile : String := "infixcalc.toml"

/-- The directory in which files are looked up by their names. -/
abbrev Directory := Table String File

/-- The parts of a path without empty ones and those that stay in place. -/
def pathParts (path : String) : List String :=
  (pathSegments path).filter fun part => part ≠ "" ∧ part ≠ "."

/-- The root of a path. Two slashes are another root than one or than more of them. -/
def pathRoot (path : String) : String :=
  match path.toList with
  | '/' :: '/' :: '/' :: _ => "/"
  | '/' :: '/' :: _ => "//"
  | '/' :: _ => "/"
  | _ => ""

/-- A path in its shortest form. -/
def shortPath (path : String) : String :=
  let root := pathRoot path
  match pathParts path with
  | [] => if root = "" then "." else root
  | parts => root ++ "/".intercalate parts

/-- Whether a short path leads to a directory above the files or to the one that holds them. -/
def isAbove (path : String) : Bool :=
  (pathParts path).all fun part => part == ".."

/-- What is read at a path where something is. -/
def File.entries (path : String) : File → Except LoadFault (Option (List (String × Value)))
  | .document entries => .ok (some entries)
  | .unreadable reason => .error (.report (.unreadable path reason))

/-- A directory stands where a file was expected. -/
def asDirectory (path : String) : File :=
  .unreadable ("[Errno 21] Is a directory: " ++ Text.quoted path)

/-- The document to read, if there is one. -/
def document? (directory : Directory) (path? : Option String) :
    Except LoadFault (Option (List (String × Value))) :=
  match path? with
  | none =>
      match directory.find? standardFile with
      | none => .ok none
      | some file => file.entries standardFile
  | some path =>
      let short := shortPath path
      if isAbove short then (asDirectory short).entries short
      else match directory.find? short with
        | none => .error (.report (.fileNotFound short))
        | some file => file.entries short

/-- Loads settings from a file, which may be named, and from an environment. -/
def load (directory : Directory) (path? : Option String) (environment : Environment) :
    Except LoadFault Settings := do
  let settings ← match ← document? directory path? with
    | none => pure Settings.default
    | some entries => ofDocument entries
  settings.withEnvironment environment

end Calculator.Settings
