import Calculator.Console.Markup
import Calculator.Text.Width

/-!
# Lines of a console

What a text looks like on a console: the control characters that would move
the cursor are left out and tabs are widened to the next stop.
-/

namespace Calculator.Console

def tabWidth : Nat := 8

/-- The bell, the backspace, the vertical tab, the form feed and the carriage return. -/
def isSilent (c : Char) : Bool :=
  [7, 8, 11, 12, 13].contains c.toNat

/-- Widens the tabs of a text that starts in a column. -/
def widenTabs (column : Nat) : List Char → List Char
  | [] => []
  | c :: rest =>
      if c = '\t' then
        let spaces := tabWidth - column % tabWidth
        List.replicate spaces ' ' ++ widenTabs (column + spaces) rest
      else if c = '\n' then c :: widenTabs 0 rest
      else c :: widenTabs (column + Text.charWidth c) rest

def line (characters : List Char) : String :=
  String.ofList (widenTabs 0 (characters.filter fun c => !isSilent c) ++ ['\n'])

/-- A line with a label, whose text is shown as it is and not read as markup. -/
def labelled (label text : String) : String :=
  line (label.toList ++ ' ' :: Markup.visible (Markup.escape text.toList))

end Calculator.Console
