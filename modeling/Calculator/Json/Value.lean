import Calculator.Decimal.Layout
import Calculator.Text.Quoted

/-!
# JSON values

Values that requests and responses are made of, and their text without
blanks. Integers and doubles are told apart, since an integer may be larger
than any double. A text that pairs its surrogates wrongly is kept as such: it
is well-formed JSON but no sequence of characters.
-/

namespace Calculator.Json

inductive Value where
  | null
  | boolean (value : Bool)
  | integer (value : Int)
  | number (x : Float)
  | text (value : String)
  | brokenText
  | list (values : List Value)
  | object (members : List (String × Value))

/-- How doubles are sent: a plain point from `0.00001` up to sixteen digits, no padded exponents. -/
def layout : Decimal.Layout := ⟨-5, 16, 1⟩

def escapeChar (c : Char) : List Char :=
  if c = '"' ∨ c = '\\' then ['\\', c]
  else if c = '\n' then ['\\', 'n']
  else if c = '\r' then ['\\', 'r']
  else if c = '\t' then ['\\', 't']
  else if c = '\x08' then ['\\', 'b']
  else if c = '\x0c' then ['\\', 'f']
  else if c.toNat < 0x20 then '\\' :: 'u' :: Text.padded 16 4 c.toNat
  else [c]

def quoted (text : String) : String :=
  String.ofList ('"' :: text.toList.flatMap escapeChar ++ ['"'])

namespace Value

/-- The member of an object under a key; the last one counts. -/
def member? (members : List (String × Value)) (key : String) : Option Value :=
  members.reverse.lookup key

mutual

/-- The text of a value. A double that is not finite and a broken text are sent as null. -/
def compact : Value → String
  | .null | .brokenText => "null"
  | .boolean value => if value then "true" else "false"
  | .integer value => toString value
  | .number x => if x.isFinite then layout.text x else "null"
  | .text value => quoted value
  | .list values => "[" ++ ",".intercalate (compactAll values) ++ "]"
  | .object members => "\x7b" ++ ",".intercalate (compactMembers members) ++ "\x7d"

def compactAll : List Value → List String
  | [] => []
  | value :: rest => value.compact :: compactAll rest

def compactMembers : List (String × Value) → List String
  | [] => []
  | (key, value) :: rest => (quoted key ++ ":" ++ value.compact) :: compactMembers rest

end

end Value

end Calculator.Json
