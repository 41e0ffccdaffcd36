/-
Keeping displays in step with the cells they read.

# Passes and refreshes

A full pass evaluates every formula once against one and the same store. A
refresh evaluates an edited cell and the cells that read it, inputs first,
each against what the ones before it show by then. Neither writes to the
store; both return the displays that changed.

# Cycles

Cells on a cycle are evaluated once, against whatever their inputs last
showed. The search for a cycle is made, but its outcome is not used.

# Edits

An edit types content into a cell, builds the graph of the sheet as it is
then, refreshes, and writes what changed. It fails where the graph cannot be
built or its keys cannot be put in order, and then there is no store after
it.
-/
import Spreadsheet.Dependency.Cycle
import Spreadsheet.Dependency.Order
import Spreadsheet.Eval.Formula

namespace Spreadsheet

/-- Displays that changed, in the order in which they did. -/
abbrev Changes := List (Text × Option Content)

/-- Is a display the same as before? -/
def sameDisplay : Option Content → Option Content → Bool
  | none, none => true
  | some x, some y => x.same y
  | _, _ => false

namespace Store

/-- The store with changed displays written back. -/
def write (store : Store) (changes : Changes) : Store :=
  changes.foldl (fun store change => store.setDisplay change.1 change.2) store

/-- What a full pass changes. -/
def recalculate (store : Store) (settings : Settings) : Changes :=
  let env := Environment.ofStore store settings
  store.entries.filterMap fun (key, cell) =>
    if cell.hasFormula then
      let display := Eval.evaluate env cell.formula
      if sameDisplay cell.display display then none else some (key, display)
    else none

/-- The cells to evaluate after a cell was edited, in order. -/
def affected (store : Store) (graph : Graph) (edited : Text) : Except Fault (List Text) :=
  graph.evaluationOrder <|
    graph.dependents edited ++ (if store.hasFormula edited then [edited] else [])

/-- The graph to go by: one that was built before, or else the graph of
the store. -/
def graphOr (store : Store) : Option Graph → Except Fault Graph
  | some graph => .ok graph
  | none => Graph.ofStore store

/-- The cells to evaluate after a cell was edited, in order, by the
graph of the store. -/
def affectedBy (store : Store) (edited : Text) : Except Fault (List Text) := do
  store.affected (← Graph.ofStore store) edited

/-- What evaluating some cells one after another changes. -/
def refresh (settings : Settings) : Store → List Text → Except Fault Changes
  | _, [] => .ok []
  | store, key :: keys =>
    match store.find? key with
    | none => .error (.missingCell key)
    | some cell =>
      let display := Eval.evaluate (Environment.ofStore store settings) cell.formula
      if sameDisplay cell.display display then store.refresh settings keys
      else do
        let others ← (store.put key { cell with display }).refresh settings keys
        return (key, display) :: others

/-- What a refresh after an edit changes, by a given graph. The graph is
searched for a cycle first, though a cycle is no fault. -/
def recalculateDependents (store : Store) (settings : Settings) (graph : Graph)
    (edited : Text) : Except Fault Changes := do
  let _ ← graph.cycle?
  store.refresh settings (← store.affected graph edited)

/-- The store after content was typed into a cell and the cells that
read it were refreshed. -/
def edit (store : Store) (settings : Settings) (key raw : Text) : Except Fault Store := do
  let key := Text.upper key
  let store := store.put key (Cell.ofInput raw)
  let changes ← store.recalculateDependents settings (← Graph.ofStore store) key
  return store.write changes

end Store

end Spreadsheet
