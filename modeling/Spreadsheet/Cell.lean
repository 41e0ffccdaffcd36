/-
Cells: raw content, a formula, and the display last computed for it.

# Where cells come from

A cell is typed in, or comes from a client as a JSON object. What is typed
is a formula if it starts with an equals sign (`ofInput`). A client names
the parts of a cell itself, so it may send a formula without that sign, or
one that is no text; both are kept as they are (`ofJson`).

# What a cell shows

What other formulas read of a cell is its display, or its raw content where
the display is missing or empty (`shown`). What the grid shows is the
display of a formula, and the raw content of anything else (`rendered`). The
two differ for a formula that was not evaluated yet, and for a plain value
to which a client sent a display.

# What is written back

The parts of a cell are written for a client with those left out that are
not there, so a cell that was sent comes back as it was read (`toJson`).
-/
import Spreadsheet.Fault

namespace Spreadsheet

/-- One cell of a sheet. -/
structure Cell where
  /-- The raw content. -/
  value : Text
  /-- The formula, if the cell has one. -/
  formula : Option Content
  /-- What was last shown for the cell, if anything was. -/
  display : Option Content

namespace Cell

-- ====================================================== where cells come from

/-- A cell with content as it is typed: an equals sign in front makes it
a formula. -/
def ofInput (raw : Text) : Cell :=
  if raw.head? = some (.char '=') then ⟨[], some (.text raw), none⟩ else ⟨raw, none, none⟩

/-- The display that a client sent, under either of its names. -/
def displayOf (fields : Entries Json) : Json :=
  match Entries.find? fields "displayValue" with
  | some json => json
  | none => (Entries.find? fields "display_value").getD .null

/-- A cell sent by a client: a text as it is typed, or an object with
its parts. -/
def ofJson : Json → Except Fault Cell
  | .string raw => .ok (ofInput raw)
  | .object fields =>
    let value := (Entries.find? fields "value").getD .null
    let formula := (Entries.find? fields "formula").getD .null
    .ok {
      value := match value with
        | .null => []
        | json => json.plain
      formula := if formula.isVoid then none else some (Content.ofJson formula)
      display := match displayOf fields with
        | .null => none
        | json => some (.text json.plain) }
  | json => .error (.cellNotObject json)

/-- The text that is typed by giving a JSON value: null is nothing, and
another value stands for its text. -/
def typedText : Json → Text
  | .null => []
  | json => json.plain

-- ====================================================== what a cell is and shows

/-- Does the cell hold a formula? -/
def hasFormula (cell : Cell) : Bool :=
  match cell.formula with
  | some formula => !formula.isVoid
  | none => false

/-- What other formulas read of the cell. -/
def shown (cell : Cell) : Content :=
  match cell.display with
  | some display => if display.isVoid then .text cell.value else display
  | none => .text cell.value

/-- What the grid shows of the cell. -/
def rendered (cell : Cell) : Content :=
  if cell.hasFormula then
    match cell.display with
    | some display => if display.isVoid then .text [] else display
    | none => .text []
  else
    .text cell.value

/-- The parts of a cell as a client reads them; a part that is not there
is left out. -/
def toJson (cell : Cell) : Json :=
  let formula := if cell.hasFormula then cell.formula.map Content.toJson else none
  let display := cell.display.map Content.toJson
  let parts : List (Text × Option Json) :=
    [("value", some (.string cell.value)), ("formula", formula), ("displayValue", display)]
  .object <| parts.filterMap fun (name, part) => part.map (name, ·)

end Cell

end Spreadsheet
