/-
The search for a circular reference.

# The walk

The search walks from cell to cell along what they read, depth first, and
keeps the walk with what is still to be tried at each of its cells. A step
that leads back onto the walk closes a cycle. A cell whose reads have all
been tried is finished and is not walked again; a cell that reads nothing is
on no cycle and is passed by.

# Its end

The search ends because no cell is walked twice: every step either comes
upon a new cell, or leaves less to try on the walk.

# Which cycle is found

Starts are tried in the order of the grid, and what a cell reads in the
order of code points, so the cycle found is always the same. It is given as
a path whose last cell is its first.
-/
import Spreadsheet.Dependency.Graph

namespace Spreadsheet.Graph

/-- What a cell reads, in the order in which it is tried. -/
def sortedReads (graph : Graph) (cell : Text) : List Text :=
  Text.sortDistinct (graph.reads cell)

/-- The cells of a walk, latest first, each with the reads that are
still to be tried. -/
abbrev Walk := List (Text × List Text)

/-- The cells of a walk, latest first. -/
def Walk.cells (walk : Walk) : List Text :=
  walk.map (·.1)

theorem Walk.mem_cells_cons {walk : Walk} {cell key : Text} {keys : List Text} :
    key ∈ Walk.cells ((cell, keys) :: walk) ↔ key = cell ∨ key ∈ walk.cells :=
  List.mem_cons

/-- The cycle that a step from the end of a walk back to one of its
cells closes. -/
def closeCycle (walk : Walk) (key : Text) : List Text :=
  key :: (walk.cells.takeWhile (· ≠ key)).reverse ++ [key]

/-- The steps that a walk takes if it meets no new cell: every read that
is left is tried, and every cell is left in the end. -/
def Walk.stepsLeft : Walk → Nat
  | [] => 0
  | (_, keys) :: walk => keys.length + 1 + Walk.stepsLeft walk

-- ====================================================== the search

/-- The search goes on from a walk. The result is a cycle, or none and
the finished cells. -/
def searchFrom (graph : Graph) : Walk → List Text → Option (List Text) × List Text
  | [], finished => (none, finished)
  | (cell, []) :: walk, finished => searchFrom graph walk (cell :: finished)
  | (cell, key :: keys) :: walk, finished =>
    if key = cell ∨ key ∈ Walk.cells walk then
      (some (closeCycle ((cell, keys) :: walk) key), finished)
    else if key ∈ finished ∨ graph.reads key = [] then
      searchFrom graph ((cell, keys) :: walk) finished
    else
      searchFrom graph ((key, graph.sortedReads key) :: (cell, keys) :: walk) finished
termination_by walk finished => ((graph.unmet (walk.cells ++ finished)).length, walk.stepsLeft)
decreasing_by
  · -- the cell is left and finished, so it was met all the same
    have hmet : graph.unmet (Walk.cells walk ++ cell :: finished)
        = graph.unmet (Walk.cells ((cell, []) :: walk) ++ finished) :=
      graph.unmet_congr fun key => List.perm_middle.mem_iff
    rw [hmet]
    apply Prod.Lex.right
    simp [Walk.stepsLeft]
  · apply Prod.Lex.right
    simp [Walk.stepsLeft]
  · next hwalk hdone =>
    obtain ⟨hfinished, hreads⟩ := not_or.mp hdone
    apply Prod.Lex.left
    refine length_unmet_lt (List.subset_cons_self ..) (mem_names_of_reads_ne_nil hreads) ?_
      (List.mem_cons_self ..)
    exact List.not_mem_append (fun hmem => hwalk (Walk.mem_cells_cons.mp hmem)) hfinished

/-- The first cycle that is met from some starts on, past the finished
cells. -/
def cycleFrom (graph : Graph) (finished : List Text) : List Text → Option (List Text)
  | [] => none
  | start :: starts =>
    if start ∈ finished ∨ graph.reads start = [] then graph.cycleFrom finished starts
    else
      match graph.searchFrom [(start, graph.sortedReads start)] finished with
      | (some cycle, _) => some cycle
      | (none, finished) => graph.cycleFrom finished starts

/-- A cycle of the graph, if there is one: a path whose last cell is its
first. -/
def cycle? (graph : Graph) : Except Fault (Option (List Text)) := do
  return graph.cycleFrom [] (← sortKeys (Text.sortDistinct graph.nodes))

end Spreadsheet.Graph
