/-
Ranges: rectangles of cells, named by two opposite corners.

# A rectangle

A range has at least one cell, and carries the proof: its edges are in
order, whichever corners it was named by. Its cells are listed row by row,
and from left to right in a row.

# Reading a range

A text names a range if it has one colon and a reference on either side,
perhaps with blanks around it. A text that names none has no cells, which is
no fault; a row with too many digits is one.
-/
import Spreadsheet.Reference
import Spreadsheet.Text.Blank

namespace Spreadsheet

/-- A rectangle of cells, with all four edges inside. -/
structure Range where
  left : Int
  top : Int
  right : Int
  bottom : Int
  left_le_right : left ≤ right
  top_le_bottom : top ≤ bottom

namespace Range

/-- The integers from `first` to `last`. -/
def integers (first last : Int) : List Int :=
  (List.range (last - first + 1).toNat).map fun (n : Nat) => first + (n : Int)

/-- The smallest range with two given cells. -/
def spanning (a b : Reference) : Range where
  left := min a.col b.col
  top := min a.row b.row
  right := max a.col b.col
  bottom := max a.row b.row
  left_le_right := by omega
  top_le_bottom := by omega

/-- The number of rows. -/
def rows (r : Range) : Int := r.bottom - r.top + 1

/-- The number of columns. -/
def cols (r : Range) : Int := r.right - r.left + 1

/-- The keys of the cells, row by row. -/
def cells (r : Range) : List Text :=
  (integers r.top r.bottom).flatMap fun row =>
    (integers r.left r.right).map fun col => (Reference.mk col row).key

/-- The two parts around the only colon of a text, if neither is
empty. -/
def corners? (text : Text) : Option (Text × Text) :=
  let first := text.takeWhile (· ≠ .char ':')
  match text.dropWhile (· ≠ .char ':') with
  | [] => none
  | _ :: second =>
    if first.isEmpty || second.isEmpty || second.contains (.char ':') then none
    else some (first, second)

/-- The range that a text names, if it has two references around a
colon. -/
def parse? (text : Text) : Except Fault (Option Range) :=
  match corners? text with
  | none => .ok none
  | some (first, second) => do
    let a ← Reference.parse? (Text.trim first)
    let b ← Reference.parse? (Text.trim second)
    match a, b with
    | some a, some b => return some (spanning a b)
    | _, _ => return none

/-- The keys of the cells of the range that a text names; none if it
names no range. -/
def expand (text : Text) : Except Fault (List Text) := do
  return ((← parse? text).map cells).getD []

/-- The number of rows and of columns of the range that a text names. -/
def shape? (text : Text) : Except Fault (Option (Int × Int)) := do
  return (← parse? text).map fun r => (r.rows, r.cols)

end Range

end Spreadsheet
