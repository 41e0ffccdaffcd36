/-
VLOOKUP: the search for a row by its first column.

# The exact search

The exact search takes the first row whose first cell shows the wanted
content. Contents are compared as they are shown, so a number is found by
the text of it, and case counts.

# The approximate search

The approximate search takes the first column for sorted: it compares keys
of the kind of the wanted content only, numbers by value and texts in lower
case by code points, and takes the last row before the first key that is
greater. It stops there, so what stands further down has no part in it.

# Faults

A text that counts as a number but cannot be converted is a fault of the
search, when the search comes to it. A column outside the table is refused
before any row is looked at, and a row that is not found is a failure that
names what was wanted.
-/
import Spreadsheet.Eval.Aggregate
import Spreadsheet.Text.Order

namespace Spreadsheet.Eval

/-- A content that must be a text. -/
def asText : Content → Except Fault Text
  | .text s => .ok s
  | content => .error (.contentNotText content)

/-- The table of a lookup: its argument must be a range with cells. -/
def lookupTable : Expr → Except Fault Range
  | .range text => do
    match ← Range.parse? text with
    | some table => return table
    | none => fail (.lookupRange text)
  | _ => fail .lookupTable

/-- The column of a table that a number names, counted from zero. -/
def lookupColumn (table : Range) (number : Option Binary64) : Except Fault Int :=
  match number with
  | none => fail .lookupColumn
  | some x =>
    if x.isNan then fail .lookupColumn
    else match x.truncate? with
      | none => .error .infiniteInteger
      | some n =>
        if n < 1 ∨ table.cols < n then fail (.columnOutside n) else .ok (n - 1)

/-- The content of a cell of a table, with columns counted from zero. -/
def tableCell (env : Environment) (table : Range) (row col : Int) : Except Fault Content :=
  env.shown (Reference.mk (table.left + col) row).key

/-- The first row whose first cell shows the wanted content. -/
def exactRow (env : Environment) (table : Range) (wanted : Content) :
    List Int → Except Fault (Option Int)
  | [] => .ok none
  | row :: rows => do
    if (← tableCell env table row 0).same wanted then return some row
    else exactRow env table wanted rows

/-- The key of an approximate search: a number, or a text in lower
case. -/
inductive SearchKey where
  | number (x : Binary64)
  | text (s : Text)

namespace SearchKey

/-- Is a content a number as a whole? -/
def isNumeric : Content → Bool
  | .text s => Number.isNumeric s
  | .other _ => false

/-- The key that a content is. -/
def ofContent (content : Content) : Except Fault SearchKey := do
  let s ← asText content
  if isNumeric content then return number (← Number.whole s)
  else return text (Text.lower s)

/-- Does a key come after another of its kind? -/
def after : SearchKey → SearchKey → Bool
  | number x, number y => x.gt y
  | text s, text t => Text.before t s
  | _, _ => false

end SearchKey

/-- The last of the rows before the first key greater than the target,
rows without a key of its kind left out; `found` is the row so far. -/
def approximateRowFrom (env : Environment) (table : Range) (numeric : Bool) (target : SearchKey)
    (found : Option Int) : List Int → Except Fault (Option Int)
  | [] => .ok found
  | row :: rows => do
    let content ← tableCell env table row 0
    if !isFilled content || SearchKey.isNumeric content != numeric then
      approximateRowFrom env table numeric target found rows
    else if (← SearchKey.ofContent content).after target then return found
    else approximateRowFrom env table numeric target (some row) rows

/-- The row of an approximate search. -/
def approximateRow (env : Environment) (table : Range) (wanted : Content) :
    Except Fault (Option Int) := do
  let target ← SearchKey.ofContent wanted
  approximateRowFrom env table (SearchKey.isNumeric wanted) target none
    (Range.integers table.top table.bottom)

/-- The content that a lookup finds in a column of a table. -/
def lookup (env : Environment) (table : Range) (wanted : Content) (column : Int)
    (approximate : Bool) : Except Fault Content := do
  let row ←
    if approximate then approximateRow env table wanted
    else exactRow env table wanted (Range.integers table.top table.bottom)
  match row with
  | none => fail (.notFound wanted)
  | some row => tableCell env table row column

end Spreadsheet.Eval
