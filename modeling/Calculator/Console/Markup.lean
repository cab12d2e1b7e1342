/-!
# Markup of console texts

Console texts may hold tags: a bracket, a name in lower case and the closing
bracket. A tag is not shown itself, unless an odd number of backslashes
stands before it; of an even number half are shown. A backslash before a
bracket that opens no tag is dropped.
-/

namespace Calculator.Markup

/-- A part of a text: characters that are shown, or a tag with the backslashes before it. -/
inductive Segment where
  | plain (c : Char)
  | tag (backslashes : Nat) (content : List Char)
deriving Repr, DecidableEq

def opensTag (c : Char) : Bool :=
  ('a' ≤ c && c ≤ 'z') || c = '#' || c = '/' || c = '@'

def isInside (c : Char) : Bool :=
  c ≠ '[' && c ≠ ']'

/-- The tag that starts here, with its backslashes, and what follows it. -/
def tagAt? (characters : List Char) : Option (Nat × List Char × List Char) :=
  let backslashes := characters.takeWhile (· == '\\')
  match characters.dropWhile (· == '\\') with
  | '[' :: c :: tail =>
      match opensTag c, tail.dropWhile isInside with
      | true, ']' :: after => some (backslashes.length, c :: tail.takeWhile isInside, after)
      | _, _ => none
  | _ => none

theorem length_of_tagAt? {characters content after : List Char} {backslashes : Nat}
    (found : tagAt? characters = some (backslashes, content, after)) :
    after.length < characters.length := by
  unfold tagAt? at found
  dsimp only at found
  split at found
  next c tail opened =>
    split at found
    next closed =>
      cases found
      have outer := (List.dropWhile_suffix (l := characters) (· == '\\')).length_le
      have inner := (List.dropWhile_suffix (l := tail) isInside).length_le
      rw [opened] at outer
      rw [closed] at inner
      simp only [List.length_cons] at outer inner
      omega
    next => simp at found
  next => simp at found

def segments (characters : List Char) : List Segment :=
  match characters with
  | [] => []
  | c :: rest =>
      match _found : tagAt? (c :: rest) with
      | some (backslashes, content, after) => .tag backslashes content :: segments after
      | none => .plain c :: segments rest
termination_by characters.length
decreasing_by
  · exact length_of_tagAt? _found
  · simp

def bracketed (content : List Char) : List Char :=
  '[' :: content ++ [']']

def Segment.escaped : Segment → List Char
  | .plain c => [c]
  | .tag backslashes content => List.replicate (2 * backslashes + 1) '\\' ++ bracketed content

/-- Escapes every tag of a text, and a backslash that stands alone at its end. -/
def escape (characters : List Char) : List Char :=
  let escaped := (segments characters).flatMap Segment.escaped
  if escaped.reverse.takeWhile (· == '\\') = ['\\'] then escaped ++ ['\\'] else escaped

/-- Drops the backslashes right before brackets. -/
def dropBackslashes : List Char → List Char
  | '\\' :: '[' :: rest => '[' :: dropBackslashes rest
  | c :: rest => c :: dropBackslashes rest
  | [] => []

/-- The characters that segments show; `pending` holds the plain ones just read, last one first. -/
def shown (pending : List Char) : List Segment → List Char
  | [] => dropBackslashes pending.reverse
  | .plain c :: rest => shown (c :: pending) rest
  | .tag backslashes content :: rest =>
      dropBackslashes pending.reverse ++ List.replicate (backslashes / 2) '\\'
        ++ (if backslashes % 2 = 1 then bracketed content else []) ++ shown [] rest

/-- The characters of a text that are shown. -/
def visible (characters : List Char) : List Char :=
  shown [] (segments characters)

end Calculator.Markup
