import Calculator.Decimal.Integer
import Calculator.Json.Value

/-!
# Tokens of JSON texts

A JSON text is split into brackets, separators, texts and words. A word is a
run of other characters and must be a number or one of the named values; the
words for doubles that are not finite are accepted. The scan never fails:
what is no token is emitted as an invalid one.
-/

namespace Calculator.Json

inductive Token where
  | openList
  | closeList
  | openObject
  | closeObject
  | comma
  | colon
  | scalar (value : Value)
  | invalid
  /-- An integer with more digits than are read. -/
  | tooLong

/-- What a `\u` escape stands for: a character, or half of a pair. -/
def unitOf (digits : List Char) : Option Nat :=
  digits.foldl (fun value c => value.bind fun sum => (hexDigit? c).map (16 * sum + ·)) (some 0)
where
  hexDigit? (c : Char) : Option Nat :=
    if c.isDigit then some (c.toNat - '0'.toNat)
    else if 'a' ≤ c ∧ c ≤ 'f' then some (c.toNat - 'a'.toNat + 10)
    else if 'A' ≤ c ∧ c ≤ 'F' then some (c.toNat - 'A'.toNat + 10)
    else none

def simpleEscape? : Char → Option Char
  | '"' => some '"'
  | '\\' => some '\\'
  | '/' => some '/'
  | 'b' => some '\x08'
  | 'f' => some '\x0c'
  | 'n' => some '\n'
  | 'r' => some '\r'
  | 't' => some '\t'
  | _ => none

/-- The number of a JSON text, which has no leading zeros, no plus and digits around its point. -/
def numberWord? (word : List Char) : Option Token :=
  let (negative, rest) := match word with
    | '-' :: rest => (true, rest)
    | rest => (false, rest)
  let whole := rest.takeWhile Char.isDigit
  let tail := rest.dropWhile Char.isDigit
  let canonical := whole ≠ [] ∧ (whole.head? ≠ some '0' ∨ whole.length = 1)
  if ¬ canonical then none
  else match tail with
    | [] =>
        if Decimal.integerDigitLimit < whole.length then some .tooLong
        else some (.scalar (.integer (Decimal.signed negative (Decimal.natural whole))))
    | '.' :: c :: _ => if c.isDigit then double word else none
    | '.' :: [] => none
    | _ => double word
where
  double (word : List Char) : Option Token :=
    match Decimal.Numeral.ofChars? word with
    | some (.finite negative digits exponent) =>
        some (.scalar (.number (Decimal.Numeral.finite negative digits exponent).toFloat))
    | _ => none

def wordToken (word : List Char) : Token :=
  let text := String.ofList word
  if text = "null" then .scalar .null
  else if text = "true" then .scalar (.boolean true)
  else if text = "false" then .scalar (.boolean false)
  else if text = "NaN" then .scalar (.number (0.0 / 0.0))
  else if text = "Infinity" then .scalar (.number (1.0 / 0.0))
  else if text = "-Infinity" then .scalar (.number (-1.0 / 0.0))
  else (numberWord? word).getD .invalid

/-- One character of a text under construction, or a half that waits for its partner. -/
inductive CodeUnit where
  | char (c : Char)
  | high (value : Nat)
  | low (value : Nat)

/-- The text of units, last one first; halves that do not pair up leave no text. -/
def textOf : List CodeUnit → List Char → Option (List Char)
  | [], later => some later
  | .char c :: rest, later => textOf rest (c :: later)
  | .low second :: .high first :: rest, later =>
      textOf rest (Char.ofNat (0x10000 + (first - 0xD800) * 0x400 + (second - 0xDC00)) :: later)
  | _, _ => none

def codeUnit (value : Nat) : CodeUnit :=
  if 0xD800 ≤ value ∧ value < 0xDC00 then .high value
  else if 0xDC00 ≤ value ∧ value < 0xE000 then .low value
  else .char (Char.ofNat value)

/-- The state of the scan between two characters. -/
inductive Scan where
  | between
  | word (characters : List Char)
  | text (units : List CodeUnit)
  | escape (units : List CodeUnit)
  | hex (units : List CodeUnit) (digits : List Char)

namespace Scan

def punctuation? : Char → Option Token
  | '[' => some .openList
  | ']' => some .closeList
  | '{' => some .openObject
  | '}' => some .closeObject
  | ',' => some .comma
  | ':' => some .colon
  | _ => none

def isSpace (c : Char) : Bool :=
  c = ' ' || c = '\t' || c = '\n' || c = '\r'

/-- Reads a character outside of texts, with the tokens that come before it. -/
def outside (before : List Token) (word : List Char) (c : Char) : List Token × Scan :=
  let ended := if word = [] then before else before ++ [wordToken word.reverse]
  match punctuation? c with
  | some token => (ended ++ [token], .between)
  | none =>
      if isSpace c then (ended, .between)
      else if c = '"' then (ended, .text [])
      else (before, .word (c :: word))

def read (scan : Scan) (c : Char) : List Token × Scan :=
  match scan with
  | .between => outside [] [] c
  | .word characters => outside [] characters c
  | .text units =>
      if c = '"' then
        ([.scalar (match textOf units [] with
          | some characters => .text (String.ofList characters)
          | none => .brokenText)], .between)
      else if c = '\\' then ([], .escape units)
      else if c.toNat < 0x20 then ([.invalid], .text units)
      else ([], .text (.char c :: units))
  | .escape units =>
      if c = 'u' then ([], .hex units [])
      else match simpleEscape? c with
        | some meant => ([], .text (.char meant :: units))
        | none => ([.invalid], .text units)
  | .hex units digits =>
      if digits.length < 3 then ([], .hex units (c :: digits))
      else match unitOf (c :: digits).reverse with
        | some value => ([], .text (codeUnit value :: units))
        | none => ([.invalid], .text units)

def finish : Scan → List Token
  | .between => []
  | .word characters => [wordToken characters.reverse]
  | _ => [.invalid]

def tokens (scan : Scan) : List Char → List Token
  | [] => scan.finish
  | c :: rest =>
      let (emitted, next) := scan.read c
      emitted ++ next.tokens rest

end Scan

end Calculator.Json
