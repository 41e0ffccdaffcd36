/-
Cell references: column letters and a row number.

# Columns

Columns are counted in letters, A to Z, then AA, AB and so on: numbers in
base 26 without a zero. There is no last one, and every word of letters is a
column.

# Places

`parse?` reads a reference in any case; `key` writes one. Coordinates count
from zero, so the row number 0 is row -1, which is a place that can be named
but is not in the grid. A row may be written with zeros in front, and such a
text names the same place under another key.

# The order of the grid

Keys are sorted row by row, and from left to right in a row; those that are
no references follow as they came. A row with too many digits is a fault, of
reading and so of sorting.
-/
import Spreadsheet.Fault
import Spreadsheet.Text.Case

namespace Spreadsheet

-- ====================================================== column letters

namespace Column

/-- The index that letters stand for: A is 0, Z is 25, AA is 26. -/
def ofLetters (letters : Text) : Int :=
  letters.foldl (fun (n : Int) c => n * 26 + ((c.code : Int) - 64)) 0 - 1

/-- The letters of a column counted from zero. -/
def lettersOf (index : Nat) : List Char :=
  let last := Char.ofNat (65 + index % 26)
  if index < 26 then [last] else lettersOf (index / 26 - 1) ++ [last]
termination_by index

/-- The label of a column; there is none below zero. -/
def label (index : Int) : List Char :=
  if index < 0 then [] else lettersOf index.toNat

end Column

-- ====================================================== references

/-- The place of a cell, counted from zero. -/
structure Reference where
  col : Int
  row : Int
deriving DecidableEq, Repr

namespace Reference

/-- Is the character one of the letters A to Z? -/
def isLetter (c : CodePoint) : Bool := c.within 'A' 'Z'

/-- Is the character one of the digits 0 to 9? -/
def isFigure (c : CodePoint) : Bool := c.within '0' '9'

/-- The letters and the figures of a reference. Nothing may follow but
one line feed. -/
def split? (text : Text) : Option (Text × Text) :=
  let letters := text.takeWhile isLetter
  let rest := text.dropWhile isLetter
  let figures := rest.takeWhile isFigure
  let tail := rest.dropWhile isFigure
  if letters.isEmpty || figures.isEmpty || !(tail.isEmpty || tail == "\n") then none
  else some (letters, figures)

/-- The place that a text names, if it is a reference in some case. -/
def parse? (text : Text) : Except Fault (Option Reference) :=
  match split? (Text.upper text) with
  | none => .ok none
  | some (letters, figures) =>
    do return some ⟨Column.ofLetters letters, (← Fault.natOf figures) - 1⟩

/-- The key of a place. -/
def key (r : Reference) : Text :=
  Text.ofChars (Column.label r.col ++ Decimal.integer (r.row + 1))

/-- Row by row, and from left to right in a row. -/
def atOrBefore (a b : Reference) : Bool :=
  decide (a.row < b.row) || (decide (a.row = b.row) && decide (a.col ≤ b.col))

end Reference

-- ====================================================== the order of the grid

/-- Items in the order of the grid; those that have no place follow as
they came. -/
def sortByPlace (place? : α → Except Fault (Option Reference)) (items : List α) :
    Except Fault (List α) := do
  let found ← items.mapM fun item => return (item, ← place? item)
  let placed := found.filterMap fun (item, place) => place.map (item, ·)
  let unplaced := found.filterMap fun (item, place) => if place.isNone then some item else none
  return (placed.mergeSort fun a b => a.2.atOrBefore b.2).map (·.1) ++ unplaced

/-- The keys in the order of the grid; those that are no references
follow as they came. -/
def sortKeys (keys : List Text) : Except Fault (List Text) :=
  sortByPlace Reference.parse? keys

end Spreadsheet
