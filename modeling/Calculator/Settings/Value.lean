import Calculator.Decimal.Integer
import Calculator.Decimal.Layout
import Calculator.Settings.Moment
import Calculator.Table
import Calculator.Text.Quoted

/-!
# Values of a configuration file

A configuration file is a table whose entries may hold values of any kind.
Messages show a value the way it would be written as a literal; a text or a
moment that stands alone is shown as its text. Integers with too many digits
are not shown at all.
-/

namespace Calculator.Settings

inductive Value where
  | boolean (value : Bool)
  | integer (value : Int)
  | float (x : Float)
  | text (value : String)
  | moment (value : Moment)
  | list (values : List Value)
  | table (entries : List (String × Value))

namespace Value

/-- A table from entries in which the last value of a repeated key counts. -/
def ofEntries (entries : List (String × Value)) : Value :=
  .table (Table.ofList entries).entries

mutual

def literal : Value → String
  | .boolean value => if value then "True" else "False"
  | .integer value => toString value
  | .float x => Decimal.Layout.display.text x
  | .text value => Text.quoted value
  | .moment value => value.literal
  | .list values => "[" ++ ", ".intercalate (literals values) ++ "]"
  | .table entries => "\x7b" ++ ", ".intercalate (entryLiterals entries) ++ "\x7d"

def literals : List Value → List String
  | [] => []
  | value :: rest => value.literal :: literals rest

def entryLiterals : List (String × Value) → List String
  | [] => []
  | (key, value) :: rest => (Text.quoted key ++ ": " ++ value.literal) :: entryLiterals rest

end

mutual

/-- No integer in a value has too many digits. -/
def isShowable : Value → Bool
  | .integer value => value.natAbs < Decimal.tenTo Decimal.integerDigitLimit
  | .list values => areShowable values
  | .table entries => entriesShowable entries
  | _ => true

def areShowable : List Value → Bool
  | [] => true
  | value :: rest => value.isShowable && areShowable rest

def entriesShowable : List (String × Value) → Bool
  | [] => true
  | (_, value) :: rest => value.isShowable && entriesShowable rest

end

/-- The text of a value, which is its literal unless it is a text or a moment. -/
def plain : Value → String
  | .text value => value
  | .moment value => value.text
  | value => value.literal

end Value

end Calculator.Settings
