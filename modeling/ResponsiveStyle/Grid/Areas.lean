/-
# Area templates

A template of areas names the cells of a grid row by row, each row between quotes. A matrix holds
the rows of names; a point stands for a cell without a name.

* `Areas.parse` reads a template; the rows it gives are all as long as the longest.
* `Areas.text` writes a matrix back.
* `Areas.bounds?` finds the rectangle of a name, if its cells form one.
-/
import ResponsiveStyle.Text.Blank

namespace ResponsiveStyle.Grid

open Text (trimmed words joined)

/-- Rows of area names. -/
abbrev Areas := List (List String)

namespace Areas

/-! ## Cells -/

/-- The cell without a name. -/
def emptyCell : String := "."

/-- Whether a cell has no name: it is empty or a run of points. -/
def isEmptyCell (cell : String) : Bool := cell.toList.all (· == '.')

/-- The cell with one point for every run of points. -/
def normalCell (cell : String) : String := if isEmptyCell cell then emptyCell else cell

/-! ## Reading -/

/-- What precedes the first quote of a kind, if there is one. -/
def beforeQuote? (quote : Char) : List Char → Option (List Char)
  | [] => none
  | c :: cs => if c == quote then some [] else (beforeQuote? quote cs).map fun row => c :: row

/-- The texts between quotes. A quote without a second one of its kind is passed over. -/
def quotedRows : List Char → List (List Char)
  | [] => []
  | c :: cs =>
    if c == '"' || c == '\'' then
      match beforeQuote? c cs with
      | some row => row :: quotedRows (cs.drop (row.length + 1))
      | none => quotedRows cs
    else quotedRows cs
termination_by cs => cs.length
decreasing_by all_goals simp only [List.length_cons, List.length_drop]; omega

/-- The cells of a row. -/
def rowCells (row : List Char) : List String :=
  (words row).map fun w => normalCell (String.ofList w)

/-- The length of the longest row. -/
def width (m : Areas) : Nat := (m.map List.length).foldl max 0

/-- The rows filled up with empty cells to the length of the longest. -/
def padded (m : Areas) : Areas :=
  m.map fun row => row ++ List.replicate (m.width - row.length) emptyCell

/-- The matrix of a template; rows without cells are left out. -/
def parse (template : String) : Areas :=
  padded (((quotedRows template.toList).map rowCells).filter fun row => !row.isEmpty)

/-! ## Writing -/

/-- The text of a row. -/
def rowText (row : List String) : String :=
  "\"" ++ joined " " (row.map fun cell => normalCell (trimmed cell)) ++ "\""

/-- The template of a matrix, or nothing if no cell has a name. -/
def text (m : Areas) : String :=
  if m.flatten.all fun cell => isEmptyCell (trimmed cell) then "" else joined " " (m.map rowText)

/-! ## Size and names -/

/-- The matrix cut or filled up to a number of columns and rows. -/
def resized (m : Areas) (columns rows : Nat) (fill : String) : Areas :=
  (List.range rows).map fun r => (List.range columns).map fun c =>
    ((m[r]?).bind fun row => row[c]?).getD fill

/-- The names of a matrix in reading order, each once. -/
def names (m : Areas) : List String :=
  m.flatten.foldl (fun found cell =>
    if isEmptyCell cell || found.contains cell then found else found ++ [cell]) []

/-! ## Rectangles -/

/-- The grid lines around an area, counted from one; the area ends before the last ones. -/
structure Bounds where
  rowStart : Nat
  rowEnd : Nat
  columnStart : Nat
  columnEnd : Nat
  deriving DecidableEq, Repr

/-- The number of rows. -/
def Bounds.rowSpan (b : Bounds) : Nat := b.rowEnd - b.rowStart

/-- The number of columns. -/
def Bounds.columnSpan (b : Bounds) : Nat := b.columnEnd - b.columnStart

/-- The columns of a name in a row. -/
def columnsOf (name : String) (row : List String) : List Nat :=
  (row.zipIdx.filter fun p => p.1 == name).map Prod.snd

/-- The rows and columns of a name in reading order. -/
def positions (m : Areas) (name : String) : List (Nat × Nat) :=
  m.zipIdx.flatMap fun p => (columnsOf name p.1).map fun c => (p.2, c)

/-- The lines around the cells of a name, if there are any and they fill a rectangle. -/
def bounds? (m : Areas) (name : String) : Option Bounds :=
  match positions m name with
  | [] => none
  | first :: rest =>
    let lastRow := rest.foldl (fun r p => max r p.1) first.1
    let lastColumn := rest.foldl (fun c p => max c p.2) first.2
    let leastColumn := rest.foldl (fun c p => min c p.2) first.2
    let area := (lastRow - first.1 + 1) * (lastColumn - first.2 + 1)
    if leastColumn != first.2 || rest.length + 1 != area then none
    else some ⟨first.1 + 1, lastRow + 2, first.2 + 1, lastColumn + 2⟩

end Areas

end ResponsiveStyle.Grid
