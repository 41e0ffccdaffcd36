/-
A graph in use.

# The kept outcome

Reads are added to a graph and questions are put to it, in any order. The
search for a cycle is the costly one of these, so its outcome is kept. It is
dropped as soon as a read is added, since that read may close a cycle.

The outcome is doubly optional: the outer option says whether the graph was
searched, and the inner one whether a cycle was found.

# Requests

A request is one thing that is asked of a tracker, and serving it gives an
answer and the tracker after it. A search that fails keeps nothing.
-/
import Spreadsheet.Dependency.Cycle
import Spreadsheet.Dependency.Order

namespace Spreadsheet

/-- A graph, and the outcome of the search for a cycle if it was
searched since the last read was added. -/
structure Tracker where
  graph : Graph
  outcome : Option (Option (List Text))

namespace Tracker

/-- A graph that was not searched yet. -/
def ofGraph (graph : Graph) : Tracker :=
  ⟨graph, none⟩

/-- The tracker of the graph in which a cell also reads a key. -/
def addRead (tracker : Tracker) (cell key : Text) : Tracker :=
  ⟨tracker.graph.addRead cell key, none⟩

/-- A cycle of the graph, if there is one, and the tracker that keeps
the outcome. -/
def cycle? (tracker : Tracker) : Except Fault (Option (List Text) × Tracker) :=
  match tracker.outcome with
  | some cycle => .ok (cycle, tracker)
  | none => do
    let cycle ← tracker.graph.cycle?
    return (cycle, { tracker with outcome := some cycle })

-- ====================================================== requests

/-- What is asked of a graph in use. -/
inductive Request where
  | addRead (cell key : Text)
  | cycle
  | dependents (key : Text)
  | order (keys : List Text)

/-- What a request is answered with. -/
inductive Answer where
  | added
  | cycle (path : Option (List Text))
  | dependents (keys : List Text)
  | order (keys : List Text)

/-- The answer to a request, and the tracker after it. -/
def serve (tracker : Tracker) : Request → Except Fault (Answer × Tracker)
  | .addRead cell key => .ok (.added, tracker.addRead cell key)
  | .cycle => do
    let (path, tracker) ← tracker.cycle?
    return (.cycle path, tracker)
  | .dependents key => .ok (.dependents (tracker.graph.dependents key), tracker)
  | .order keys => do return (.order (← tracker.graph.evaluationOrder keys), tracker)

end Tracker

end Spreadsheet
