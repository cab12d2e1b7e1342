import Calculator.Json.Token

/-!
# Reading JSON texts

Tokens are put together with a stack of the lists and objects still open.
The first token that cannot stand where it stands decides why a text is no
value.
-/

namespace Calculator.Json

inductive ReadError where
  | malformed
  /-- The text is well-formed so far but holds more than is read. -/
  | tooLarge
deriving Repr, DecidableEq

/-- A list or an object still open, with its values last one first. -/
inductive Frame where
  | list (values : List Value)
  | object (members : List (String × Value))
  /-- An object that waits for the value of a key; a broken text is no key and is dropped. -/
  | keyed (members : List (String × Value)) (key : Option String)

/-- What may come next. -/
inductive Expected where
  | value
  /-- The first value of a list, or its end. -/
  | valueOrEnd
  | key
  /-- The first key of an object, or its end. -/
  | keyOrEnd
  | colon
  /-- A comma or the end of what is open. -/
  | separator

structure Reader where
  frames : List Frame
  expected : Expected
  /-- The whole value, once it is there. -/
  result : Option Value

namespace Reader

def initial : Reader := ⟨[], .value, none⟩

/-- How many lists and objects may be open inside each other. -/
def nestingLimit : Nat := 920

/-- Puts a finished value where it belongs. -/
def place (frames : List Frame) (value : Value) : Except ReadError Reader :=
  match frames with
  | [] => .ok ⟨[], .separator, some value⟩
  | .list values :: rest => .ok ⟨.list (value :: values) :: rest, .separator, none⟩
  | .keyed members (some key) :: rest =>
      .ok ⟨.object ((key, value) :: members) :: rest, .separator, none⟩
  | .keyed members none :: rest => .ok ⟨.object members :: rest, .separator, none⟩
  | .object _ :: _ => .error .malformed

def enter (reader : Reader) (frame : Frame) (expected : Expected) : Except ReadError Reader :=
  if nestingLimit ≤ reader.frames.length then .error .tooLarge
  else .ok ⟨frame :: reader.frames, expected, none⟩

def scalar (reader : Reader) (value : Value) : Except ReadError Reader :=
  match reader.expected, value, reader.frames with
  | .value, _, frames | .valueOrEnd, _, frames => place frames value
  | .key, .text key, .object members :: rest | .keyOrEnd, .text key, .object members :: rest =>
      .ok ⟨.keyed members (some key) :: rest, .colon, none⟩
  | .key, .brokenText, .object members :: rest
  | .keyOrEnd, .brokenText, .object members :: rest =>
      .ok ⟨.keyed members none :: rest, .colon, none⟩
  | _, _, _ => .error .malformed

def accept (reader : Reader) (token : Token) : Except ReadError Reader :=
  match token, reader.expected, reader.frames with
  | .scalar value, _, _ => reader.scalar value
  | .openList, .value, _ | .openList, .valueOrEnd, _ => reader.enter (.list []) .valueOrEnd
  | .openObject, .value, _ | .openObject, .valueOrEnd, _ => reader.enter (.object []) .keyOrEnd
  | .closeList, .separator, .list values :: rest
  | .closeList, .valueOrEnd, .list values :: rest => place rest (.list values.reverse)
  | .closeObject, .separator, .object members :: rest
  | .closeObject, .keyOrEnd, .object members :: rest => place rest (.object members.reverse)
  | .comma, .separator, .list _ :: _ => .ok { reader with expected := .value }
  | .comma, .separator, .object _ :: _ => .ok { reader with expected := .key }
  | .colon, .colon, _ => .ok { reader with expected := .value }
  | .tooLong, .value, _ | .tooLong, .valueOrEnd, _ => .error .tooLarge
  | _, _, _ => .error .malformed

end Reader

/-- The value of a JSON text, which may start with a byte order mark. -/
def read (text : String) : Except ReadError Value := do
  let characters := match text.toList with
    | '\ufeff' :: rest => rest
    | all => all
  let reader ← (Scan.between.tokens characters).foldlM Reader.accept Reader.initial
  match reader.result with
  | some value => return value
  | none => throw .malformed

end Calculator.Json
