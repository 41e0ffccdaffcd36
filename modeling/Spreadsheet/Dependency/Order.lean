/-
Which cells a change reaches, and the order in which they are evaluated.

# What a change reaches

Readers of the edited cell are found, then the readers of these, until
nothing new is found (`dependents`). A cell is found only once, however many
ways lead to it, and the edited cell is found too if it lies on a cycle.

# The order

A cell waits for as many inputs as it reads of the cells to be ordered. Each
cell that is taken is one input less for its readers, and a cell is ready
once it waits for none. Cells that become ready together go in the order of
the grid. What is never ready reads a cycle or lies on one; it follows at
the end, in the order of the grid.

# Its end

Both searches end: one finds a cell only once, and in the other a cell that
becomes ready no longer waits. Sorting is the only step that can fail, on a
key whose row has too many digits.
-/
import Spreadsheet.Dependency.Graph

namespace Spreadsheet.Graph

-- ====================================================== what a change reaches

/-- The cells found so far, and those that read what is left to
visit. -/
def spread (graph : Graph) : List Text → List Text → List Text
  | [], found => found
  | key :: keys, found =>
    let fresh := (graph.readers key).filter (· ∉ found)
    graph.spread (fresh ++ keys) (found ++ fresh)
termination_by visit found => ((graph.unmet found).length, visit.length)
decreasing_by
  by_cases hfresh : (graph.readers key).filter (· ∉ found) = []
  · -- nothing is found, and one key less is left to visit
    rw [hfresh, List.append_nil]
    apply Prod.Lex.right
    exact Nat.lt_succ_self _
  · obtain ⟨reader, hreader⟩ := List.exists_mem_of_ne_nil _ hfresh
    obtain ⟨hreads, hnew⟩ := List.mem_filter.mp hreader
    apply Prod.Lex.left
    exact length_unmet_lt (List.subset_append_left ..) (mem_names_of_mem_readers hreads)
      (of_decide_eq_true hnew) (List.mem_append_right _ hreader)

/-- The cells that read a key, directly or through other cells. -/
def dependents (graph : Graph) (key : Text) : List Text :=
  graph.spread [key] []

-- ====================================================== the order of evaluation

/-- A list without repetitions: every member stays where it first
stands. -/
def firsts (keys : List Text) : List Text :=
  keys.foldl withMember []

/-- What a cell reads of some cells. -/
def inputsAmong (graph : Graph) (pending : List Text) (key : Text) : List Text :=
  (graph.reads key).filter (· ∈ pending)

/-- How many of some cells each of them reads. -/
def inDegrees (graph : Graph) (pending : List Text) : Entries Int :=
  pending.map fun key => (key, (graph.inputsAmong pending key).length)

/-- The number of inputs that each cell still waits for, and the cells
that are ready, in the order in which they will be taken. -/
structure Agenda where
  degrees : Entries Int
  queue : List Text

namespace Agenda

/-- A cell was taken, so one that reads it waits for one input less, and
is ready if that was the last one. A cell that reads itself does not
release itself. -/
def release (key : Text) (agenda : Agenda) (reader : Text) : Agenda :=
  match agenda.degrees.find? reader with
  | none => agenda
  | some degree =>
    if reader = key then agenda
    else {
      degrees := agenda.degrees.put reader (degree - 1)
      queue := if degree - 1 = 0 then agenda.queue ++ [reader] else agenda.queue }

/-- The cells that can still be taken: those that wait for something,
and those that are ready. -/
def stepsLeft (agenda : Agenda) : Nat :=
  agenda.degrees.countP (fun entry => 0 < entry.2) + agenda.queue.length

/-- A cell that becomes ready no longer waits. -/
theorem stepsLeft_release (key : Text) (agenda : Agenda) (reader : Text) :
    (agenda.release key reader).stepsLeft = agenda.stepsLeft := by
  unfold release
  split
  · rfl
  · next degree hdegree =>
    split
    · rfl
    · have hcount := Entries.countP_put (fun degree : Int => 0 < degree) hdegree (degree - 1)
      simp only [decide_eq_true_eq] at hcount
      unfold stepsLeft
      dsimp only
      by_cases hlast : degree - 1 = 0
      · rw [if_pos hlast, List.length_append, List.length_singleton]
        rw [if_pos (by omega), if_neg (by omega)] at hcount
        omega
      · rw [if_neg hlast]
        have hsame : 0 < degree ↔ 0 < degree - 1 := by omega
        simp only [hsame] at hcount
        exact congrArg (· + agenda.queue.length) (Nat.add_right_cancel hcount)

theorem stepsLeft_foldl_release (key : Text) (readers : List Text) (agenda : Agenda) :
    (readers.foldl (release key) agenda).stepsLeft = agenda.stepsLeft := by
  induction readers generalizing agenda with
  | nil => rfl
  | cons reader readers ih => rw [List.foldl_cons, ih, stepsLeft_release]

end Agenda

/-- Takes the first cell of the queue and releases its readers, in the
order of the grid, until no cell is ready. -/
def settle (graph : Graph) : Agenda → List Text → Except Fault (List Text)
  | ⟨_, []⟩, done => .ok done.reverse
  | ⟨degrees, key :: queue⟩, done => do
    let readers ← sortKeys (graph.readers key)
    graph.settle (readers.foldl (Agenda.release key) ⟨degrees, queue⟩) (key :: done)
termination_by agenda => agenda.stepsLeft
decreasing_by
  rw [Agenda.stepsLeft_foldl_release]
  exact Nat.lt_succ_self _

/-- The cells in an order in which inputs come before the cells that
read them, as far as no cycle forbids it. -/
def evaluationOrder (graph : Graph) (keys : List Text) : Except Fault (List Text) := do
  let pending := firsts keys
  let degrees := graph.inDegrees pending
  let queue ← sortKeys (pending.filter fun key => degrees.find? key == some 0)
  let settled ← graph.settle ⟨degrees, queue⟩ []
  return settled ++ (← sortKeys (pending.filter (· ∉ settled)))

end Spreadsheet.Graph
