import Sift.Text.Blank

/-!
# Text in columns

Cells end with tabs and lines with line feeds. Cells above each other in neighbouring lines form a
column, which is as wide as its widest cell and two spaces more. The last cell of a line belongs to no
column. A form feed ends a line and all columns.
-/

namespace Sift.Columns

/-- The spaces between columns. -/
def gap : Nat := 2

/-- The cells of a line. -/
abbrev Line := List (List Char)

/-- The lines of a text without form feeds. -/
def lines (text : List Char) : List Line :=
  (Text.splitChars '\n' text).map fun line =>
    Text.splitChars '\t' (line.map fun c => if c = '\x0b' then '\t' else c)

/-- Whether a line has a cell in a column. -/
def reaches (column : Nat) (line : Line) : Bool := column + 1 < line.length

/-- The width of a column in lines that reach it. -/
def width (column : Nat) (block : List Line) : Nat :=
  block.foldl (fun width line => max width ((line.getD column []).length + gap)) 0

/-- A line whose columns have the given widths. -/
def render : List Nat → Line → List Char
  | width :: widths, cell :: next :: rest =>
    cell ++ List.replicate (width - cell.length) ' ' ++ render widths (next :: rest)
  | _, line => line.flatten

/-- Lays lines out whose first columns have the given widths; `fuel` bounds the columns. -/
def arrange : Nat → List Nat → List Line → List (List Char)
  | 0, widths, block => block.map (render widths)
  | fuel + 1, widths, block =>
    let column := widths.length
    let runs := block.splitBy fun a b => reaches column a == reaches column b
    runs.flatMap fun run =>
      if run.head?.any (reaches column) then arrange fuel (widths ++ [width column run]) run
      else run.map (render widths)

/-- Lays text without form feeds out. -/
def layoutBlock (text : List Char) : List Char :=
  let block := lines text
  let columns := block.foldl (fun most line => max most line.length) 0
  ['\n'].intercalate (arrange columns [] block)

/-- Lays text out in columns. -/
def layout (text : String) : String :=
  String.ofList (['\n'].intercalate ((Text.splitChars '\x0c' text.toList).map layoutBlock))

end Sift.Columns
