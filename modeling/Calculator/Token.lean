import Calculator.Registry

/-!
# Tokens

The scan splits the characters of an expression into words, operators,
brackets and separators. An operator symbol at the start, after an operator
or after an opening bracket is a sign and belongs to the word that follows;
directly after an opening bracket that itself follows an operator or another
opening bracket it is misplaced. A word is a call when an opening bracket
ends it. The scan never fails, and what it emits for a character depends on
that character and those before it.
-/

namespace Calculator

inductive Token where
  | word (text : String)
  /-- A word and the opening bracket that ends it. -/
  | call (text : String)
  | operator (symbol : Char)
  | openBracket
  | separator
  | closeBracket
  | misplacedSign
deriving Repr, DecidableEq

/-- What the characters just read allow next. -/
inductive Position where
  | start
  /-- After an ordinary character, a separator or a closing bracket. -/
  | operand
  /-- After an operator, or after an opening bracket that does not follow one. -/
  | opened
  /-- After an opening bracket that directly follows an operator or an opening bracket. -/
  | nested
deriving Repr, DecidableEq

namespace Position

def allowsSign (position : Position) : Bool :=
  position ≠ .operand

def afterBracket : Position → Position
  | .start | .operand => .opened
  | .opened | .nested => .nested

end Position

/-- The state of the scan between two characters. -/
structure Scan where
  position : Position
  /-- The characters of the unfinished word, last one first. -/
  word : List Char
deriving Repr, DecidableEq

namespace Scan

def initial : Scan := ⟨.start, []⟩

def text (scan : Scan) : String :=
  String.ofList scan.word.reverse

/-- The tokens up to a character that ends the word, and the state after it. -/
def close (scan : Scan) (token : Token) (position : Position) : List Token × Scan :=
  (if scan.word = [] then [token] else [.word scan.text, token], ⟨position, []⟩)

def extend (scan : Scan) (c : Char) : List Token × Scan :=
  ([], ⟨.operand, c :: scan.word⟩)

def read (isOperator : Char → Bool) (scan : Scan) (c : Char) : List Token × Scan :=
  if isOperator c then
    if scan.position = .nested then ([.misplacedSign], scan)
    else if scan.position.allowsSign then scan.extend c
    else scan.close (.operator c) .opened
  else if c = '(' then
    (if scan.word = [] then [.openBracket] else [.call scan.text],
      ⟨scan.position.afterBracket, []⟩)
  else if c = ')' then scan.close .closeBracket .operand
  else if c = ',' then scan.close .separator .operand
  else scan.extend c

def finish (scan : Scan) : List Token :=
  if scan.word = [] then [] else [.word scan.text]

/-- The tokens of the remaining characters. -/
def tokens (isOperator : Char → Bool) (scan : Scan) : List Char → List Token
  | [] => scan.finish
  | c :: rest =>
      let (emitted, next) := scan.read isOperator c
      emitted ++ next.tokens isOperator rest

/-- The tokens emitted while the characters are read, and the state after them. -/
def run (isOperator : Char → Bool) (scan : Scan) : List Char → List Token × Scan
  | [] => ([], scan)
  | c :: rest =>
      let (emitted, next) := scan.read isOperator c
      let (later, last) := next.run isOperator rest
      (emitted ++ later, last)

theorem tokens_append (isOperator : Char → Bool) (scan : Scan) (first second : List Char) :
    scan.tokens isOperator (first ++ second) =
      (scan.run isOperator first).1 ++ (scan.run isOperator first).2.tokens isOperator second := by
  induction first generalizing scan with
  | nil => rfl
  | cons c rest ih => simp [tokens, run, ih]

end Scan

/-- The tokens of a source without blanks. -/
def Token.ofSource (isOperator : Char → Bool) (source : List Char) : List Token :=
  Scan.initial.tokens isOperator source

end Calculator
