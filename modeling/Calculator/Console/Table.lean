import Calculator.Console.Line

/-!
# Tables of a console

A table has a centred title, a row of headings in a heavy frame and a light
frame around the rows below. Every column is as wide as its widest cell.
-/

namespace Calculator.Console

inductive Alignment where
  | left
  | right

structure Column where
  heading : String
  alignment : Alignment
  cells : List (List Char)

/-- What a cell shows of a text with markup. -/
def cell (text : String) : List Char :=
  (Markup.visible text.toList).filter fun c => !isSilent c

def Column.width (column : Column) : Nat :=
  (column.heading.toList :: column.cells).foldl (fun widest text => max widest (Text.width text)) 0

def Column.pad (column : Column) (text : List Char) : List Char :=
  let spaces := List.replicate (column.width - Text.width text) ' '
  match column.alignment with
  | .left => ' ' :: text ++ spaces ++ [' ']
  | .right => ' ' :: spaces ++ text ++ [' ']

/-- The characters of a horizontal border: its ends, its line and its crossings. -/
structure Border where
  left : Char
  line : Char
  crossing : Char
  right : Char

def Border.render (border : Border) (columns : List Column) : List Char :=
  border.left :: [border.crossing].intercalate
    (columns.map fun column => List.replicate (column.width + 2) border.line) ++ [border.right]

def row (bar : Char) (cells : List (List Char)) : List Char :=
  bar :: [bar].intercalate cells ++ [bar]

def centred (width : Nat) (text : List Char) : List Char :=
  let spare := width - Text.width text
  List.replicate (spare / 2) ' ' ++ text ++ List.replicate (spare - spare / 2) ' '

def top : Border := ⟨'┏', '━', '┳', '┓'⟩

def middle : Border := ⟨'┡', '━', '╇', '┩'⟩

def bottom : Border := ⟨'└', '─', '┴', '┘'⟩

/-- The rows of a table: as many as the first column has cells. -/
def bodyRows (columns : List Column) : List (List (List Char)) :=
  (List.range ((columns.head?.map fun column => column.cells.length).getD 0)).map fun index =>
    columns.map fun column => column.pad (column.cells[index]?.getD [])

def table (title : String) (columns : List Column) : String :=
  let width := columns.foldl (fun total column => total + column.width + 3) 1
  let lines := [centred width title.toList, top.render columns,
    row '┃' (columns.map fun column => column.pad column.heading.toList), middle.render columns]
    ++ (bodyRows columns).map (row '│') ++ [bottom.render columns]
  String.ofList (lines.flatMap fun line => line ++ ['\n'])

end Calculator.Console
