/-
The grid: what the cells of a store show, row by row.

# The size

The grid reaches from the first cell to the last used row and the last used
column. Cells whose key names no place, or the row number zero, are not in
it; of two cells at one place the later is shown.

# The rows

Rows are numbered from one and columns have their labels. A preview is the
first rows as a client reads them, each with its number and with what stands
under each label. Places that no cell is at show the empty text.

# What is left out

A grid is given by the cells that are placed in it, and by its size. How
much room a table of that size takes is not asked here: a sheet with one
cell far below or far to the right has a grid all the same, also where a
host could not hold it or could not number its places.
-/
import Spreadsheet.Store
import Spreadsheet.Reference

namespace Spreadsheet

/-- The shown contents of a sheet, at places counted from zero. -/
structure Grid where
  /-- The contents, the one placed last first. -/
  placed : List (Reference × Content)
  rows : Nat
  cols : Nat

namespace Grid

/-- The cells of a store that have a place. -/
def placedCells (store : Store) : Except Fault (List (Reference × Content)) := do
  let cells ← store.entries.mapM fun (key, cell) => do
    return (← Reference.parse? key).map (·, cell.rendered)
  return cells.filterMap fun cell => cell.filter fun (place, _) => decide (0 ≤ place.row)

/-- The grid of a store. -/
def ofStore (store : Store) : Except Fault Grid := do
  let placed ← placedCells store
  return {
    placed := placed.reverse
    rows := placed.foldl (fun n (place, _) => max n (place.row + 1).toNat) 0
    cols := placed.foldl (fun n (place, _) => max n (place.col + 1).toNat) 0 }

/-- What is shown at a place. -/
def contentAt (grid : Grid) (row col : Nat) : Content :=
  ((grid.placed.find? fun (place, _) => place = ⟨col, row⟩).map (·.2)).getD (.text [])

/-- The labels of the columns. -/
def columns (grid : Grid) : List Text :=
  (List.range grid.cols).map fun (col : Nat) => Text.ofChars (Column.label col)

/-- The numbers of the rows. -/
def rowNumbers (grid : Grid) : List Nat :=
  (List.range grid.rows).map (· + 1)

/-- How many rows a preview has: at most the given number, or all but
that many at the end if it is negative. -/
def previewRows (grid : Grid) (limit : Int) : Nat :=
  if 0 ≤ limit then min limit.toNat grid.rows else grid.rows - (-limit).toNat

/-- The text of a content in a row that a client reads; what is no
number has none. -/
def rowText : Content → Text
  | .text s => s
  | .other json => if json.isNan then [] else json.plain

/-- A row as a client reads it: its number, and what is shown under each
column label. -/
def rowJson (grid : Grid) (row : Nat) : Json :=
  .object <|
    (Text.ofString "row", .integer (row + 1)) ::
      (List.range grid.cols).map fun (col : Nat) =>
        (Text.ofChars (Column.label col), .string (rowText (grid.contentAt row col)))

/-- The first rows as a client reads them. -/
def preview (grid : Grid) (limit : Int) : List Json :=
  (List.range (grid.previewRows limit)).map grid.rowJson

end Grid

end Spreadsheet
