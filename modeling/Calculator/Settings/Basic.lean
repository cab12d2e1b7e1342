import Calculator.Compile
import Calculator.Decimal.Integer
import Calculator.Table

/-!
# Settings

What a service and a command line may be told: how deep expressions may
nest, where to serve, how much to log and which variables every expression
finds.
-/

namespace Calculator

inductive LogLevel where
  | critical
  | debug
  | error
  | info
  | warning
deriving Repr, DecidableEq

namespace LogLevel

/-- The levels in the order of their names. -/
def all : List LogLevel := [.critical, .debug, .error, .info, .warning]

def name : LogLevel → String
  | .critical => "CRITICAL"
  | .debug => "DEBUG"
  | .error => "ERROR"
  | .info => "INFO"
  | .warning => "WARNING"

def lowerName (level : LogLevel) : String :=
  level.name.map Char.toLower

/-- The capital of a character of a level name; the dotless i has the capital of the dotted one. -/
def capital (c : Char) : Char :=
  if c = 'ı' then 'I' else c.toUpper

/-- Reads the name of a level in letters of either case, with blanks around it. -/
def ofText? (text : String) : Option LogLevel :=
  let name := String.ofList (Text.trimBy Text.isBlank (text.toList.map capital))
  all.find? fun level => level.name == name

end LogLevel

structure Settings where
  maxDepth : Int
  host : String
  port : Nat
  logLevel : LogLevel
  bindings : Table String Decimal.Quantity

def Settings.default : Settings where
  maxDepth := defaultMaxDepth
  host := "127.0.0.1"
  port := 8000
  logLevel := .info
  bindings := .empty

end Calculator
