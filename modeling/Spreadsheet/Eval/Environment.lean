/-
What an evaluation depends on besides the formula: the cells and the
settings.

# Cells

Cells are seen only through what they show. A store answers for every key;
cells that are still in the form a client sent them may turn out to be no
cells when they are read (`ofUnread`). There a fault belongs to the formula
that reads the cell, and the other formulas do not notice it.

# Settings

The settings are the reading of the clock and the two patterns that it is
written by. They are given from outside, so an evaluation has no state and
no effects: the same formula shows the same in the same environment.
-/
import Spreadsheet.Calendar.Moment
import Spreadsheet.Number.Reading
import Spreadsheet.Store

namespace Spreadsheet

/-- The clock, and how its readings are written. -/
structure Settings where
  now : Moment
  dateFormat : Text := "%m/%d/%Y"
  dateTimeFormat : Text := "%m/%d/%Y, %I:%M:%S %p"

/-- What an evaluation reads. -/
structure Environment where
  /-- What the cell under a key shows. -/
  shown : Text → Except Fault Content
  settings : Settings

namespace Environment

/-- The cells of a store. -/
def ofStore (store : Store) (settings : Settings) : Environment :=
  ⟨fun key => .ok (store.shown key), settings⟩

/-- What a cell shows that is still in the form a client sent it. -/
def shownUnread (cells : Entries Json) (key : Text) : Except Fault Content :=
  match cells.find? key with
  | none => .ok (.text [])
  | some .null => .ok (.text [])
  | some json => do return (← Cell.ofJson json).shown

/-- Cells that are still in the form a client sent them. -/
def ofUnread (cells : Entries Json) (settings : Settings) : Environment :=
  ⟨shownUnread cells, settings⟩

/-- The number that the cell under a key counts as; a cell without a
number counts as zero. -/
def numberOf (env : Environment) (key : Text) : Except Fault Binary64 := do
  return (← Number.ofContent? (← env.shown key)).getD (Binary64.zero false)

end Environment

end Spreadsheet
