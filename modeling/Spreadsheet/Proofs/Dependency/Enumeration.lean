/-
Graphs whose sets are gone through in any order.

# Sets and lists

A graph lists its cells in the order in which they came, and so whatever is
gathered from them has an order too, though it stands for a set. An
`Enumeration` is any other order of these sets, each in its own: the nodes,
what a cell reads, who reads a key, and the members of a collection of keys.
No two of these orders need have anything to do with each other.

# Questions along an enumeration

Here the questions to a graph are asked along an enumeration, each step the
one of the graph itself. Along the order in which the graph lists its sets
(`asListed`) the answers are those of the graph (`evaluationOrder_asListed`,
`cycle?_asListed`). So what is proved along every enumeration is proved of
the graph.

# What does not depend on it

What a change reaches is the same along every enumeration
(`mem_dependents`). The search for a cycle depends on the order of the nodes
only, since what a cell reads is sorted before it is tried (`cycle?_eq`),
and a cell waits for equally many inputs in whatever order these are counted
(`inDegrees_listed`).
-/
import Spreadsheet.Dependency.Cycle
import Spreadsheet.Proofs.Dependency.Among
import Spreadsheet.Proofs.Dependency.Reach

namespace Spreadsheet

/-- The order in which texts come makes no difference to sorting
them. -/
theorem Text.sortDistinct_congr {texts texts' : List Text} (h : texts.Perm texts') :
    sortDistinct texts = sortDistinct texts' := by
  have hsorted : ∀ ts : List Text, (ts.mergeSort notAfter).Pairwise (notAfter · ·) := by
    refine List.pairwise_mergeSort (fun a b c hab hbc => ?_) fun a b => ?_
    · exact notAfter_iff.mpr (List.le_trans (notAfter_iff.mp hab) (notAfter_iff.mp hbc))
    · rw [Bool.or_eq_true, notAfter_iff, notAfter_iff]
      exact List.le_total a b
  have hperm : (texts.mergeSort notAfter).Perm (texts'.mergeSort notAfter) :=
    (List.mergeSort_perm _ _).trans (h.trans (List.mergeSort_perm _ _).symm)
  have hsame : texts.mergeSort notAfter = texts'.mergeSort notAfter :=
    List.Perm.eq_of_pairwise (fun _ _ _ _ => eq_of_notAfter) (hsorted _) (hsorted _) hperm
  unfold sortDistinct
  rw [hsame]

namespace Graph

open Relation (TransGen)

/-- An order in which the sets of a graph are gone through. -/
structure Enumeration (graph : Graph) where
  nodes : List Text
  reads : Text → List Text
  readers : Text → List Text
  /-- The members of the set of some keys. -/
  members : List Text → List Text
  perm_nodes : nodes.Perm (Text.sortDistinct graph.nodes)
  perm_reads : ∀ cell, (reads cell).Perm (graph.reads cell)
  perm_readers : ∀ key, (readers key).Perm (graph.readers key)
  perm_members : ∀ keys, (members keys).Perm (firsts keys)

namespace Enumeration

variable {graph : Graph}

/-- The order in which the graph lists its sets. -/
def asListed (graph : Graph) : Enumeration graph where
  nodes := Text.sortDistinct graph.nodes
  reads := graph.reads
  readers := graph.readers
  members := firsts
  perm_nodes := List.Perm.refl _
  perm_reads _ := List.Perm.refl _
  perm_readers _ := List.Perm.refl _
  perm_members _ := List.Perm.refl _

/-- Along an enumeration the readers of a key are the cells that read
it. -/
theorem mem_readers (e : Enumeration graph) {cell key : Text} :
    cell ∈ e.readers key ↔ graph.Reads cell key := by
  rw [(e.perm_readers key).mem_iff, Graph.mem_readers]

/-- The graph whose cells list what they read in the order of the
enumeration. -/
def listed (e : Enumeration graph) : Graph where
  entries := graph.entries.names.map fun cell => (cell, e.reads cell)
  distinct := by
    unfold Entries.names
    rw [List.map_map]
    exact (List.map_id _).symm ▸ graph.distinct
  distinct_reads := by
    intro entry hentry
    obtain ⟨cell, -, rfl⟩ := List.mem_map.mp hentry
    exact (e.perm_reads cell).nodup_iff.mpr (graph.nodup_reads cell)

/-- The graph in the order of the enumeration has its lists, so what is
proved of lists holds along every enumeration. -/
theorem reads_listed (e : Enumeration graph) (cell : Text) :
    e.listed.reads cell = e.reads cell := by
  have hfind : e.listed.entries.find? cell
      = if cell ∈ graph.entries.names then some (e.reads cell) else none :=
    Entries.find?_ofKeys ..
  rw [Graph.reads, hfind]
  by_cases hcell : cell ∈ graph.entries.names
  · rw [if_pos hcell]
    rfl
  · rw [if_neg hcell]
    have hnil : graph.reads cell = [] := by
      by_contra hne
      exact hcell (mem_names_of_reads_ne_nil hne)
    exact (List.Perm.eq_nil (hnil ▸ e.perm_reads cell)).symm

theorem mem_members (e : Enumeration graph) {keys : List Text} {key : Text} :
    key ∈ e.members keys ↔ key ∈ keys := by
  rw [(e.perm_members keys).mem_iff, mem_firsts]

theorem nodup_members (e : Enumeration graph) (keys : List Text) : (e.members keys).Nodup :=
  (e.perm_members keys).nodup_iff.mpr (nodup_firsts keys)

/-- A cell reads as many of some cells in whatever order its reads are
gone through. -/
theorem inDegrees_listed (e : Enumeration graph) (pending : List Text) :
    e.listed.inDegrees pending = graph.inDegrees pending := by
  unfold inDegrees inputsAmong
  simp only [reads_listed, ((e.perm_reads _).filter _).length_eq]

-- ====================================================== what a change reaches

/-- The readers of a key that are not found yet, along an
enumeration. -/
def freshReaders (e : Enumeration graph) (key : Text) (found : List Text) : List Text :=
  (e.readers key).filter (· ∉ found)

/-- The new readers of a key are the same along every enumeration, in
some order. -/
theorem perm_freshReaders (e : Enumeration graph) (key : Text) (found : List Text) :
    (e.freshReaders key found).Perm (graph.freshReaders key found) :=
  (e.perm_readers key).filter _

/-- The cells found so far, and those that read what is left to visit,
along an enumeration. -/
def spread (e : Enumeration graph) : List Text → List Text → List Text
  | [], found => found
  | key :: keys, found =>
    e.spread (e.freshReaders key found ++ keys) (found ++ e.freshReaders key found)
termination_by visit found => ((graph.unmet found).length, visit.length)
decreasing_by
  by_cases hfresh : e.freshReaders key found = []
  · rw [hfresh, List.append_nil]
    apply Prod.Lex.right
    exact Nat.lt_succ_self _
  · obtain ⟨reader, hreader⟩ := List.exists_mem_of_ne_nil _ hfresh
    obtain ⟨hreads, hnew⟩ := mem_freshReaders.mp ((e.perm_freshReaders key found).mem_iff.mp hreader)
    apply Prod.Lex.left
    exact length_unmet_lt (List.subset_append_left ..) (mem_names_of_reads hreads) hnew
      (List.mem_append_right _ hreader)

/-- The cells that read a key, directly or through other cells, along an
enumeration. -/
def dependents (e : Enumeration graph) (key : Text) : List Text :=
  e.spread [key] []

/-- Whatever the order in which readers are gone through, the search
stays one for what reads the start. -/
theorem spread_spec (e : Enumeration graph) {start : Text} {visit found : List Text}
    (h : Spreading graph start visit found) : Spreading graph start [] (e.spread visit found) := by
  fun_induction spread e visit found with
  | case1 found => exact h
  | case2 key keys found ih =>
      have hfresh := e.perm_freshReaders key found
      exact ih (h.step.of_perm (hfresh.append_right keys) (hfresh.append_left found))

/-- The cells found along an enumeration are those that read the key. -/
theorem mem_dependents (e : Enumeration graph) {key k : Text} :
    k ∈ e.dependents key ↔ TransGen graph.Reads k key :=
  (e.spread_spec (spreading_start graph key)).mem_found

theorem spread_asListed (graph : Graph) (visit found : List Text) :
    (asListed graph).spread visit found = graph.spread visit found := by
  fun_induction Graph.spread graph visit found with
  | case1 found => rw [spread]
  | case2 key keys found fresh ih =>
      rw [spread]
      exact ih

theorem dependents_asListed (graph : Graph) (key : Text) :
    (asListed graph).dependents key = graph.dependents key :=
  spread_asListed graph [key] []

-- ====================================================== the order of evaluation

/-- Takes the first cell of the queue and releases its readers until no
cell is ready, along an enumeration. -/
def settle (e : Enumeration graph) : Agenda → List Text → Except Fault (List Text)
  | ⟨_, []⟩, done => .ok done.reverse
  | ⟨degrees, key :: queue⟩, done => do
    let readers ← sortKeys (e.readers key)
    e.settle (readers.foldl (Agenda.release key) ⟨degrees, queue⟩) (key :: done)
termination_by agenda => agenda.stepsLeft
decreasing_by
  rw [Agenda.stepsLeft_foldl_release]
  exact Nat.lt_succ_self _

/-- The cells in an order in which inputs come before the cells that
read them, along an enumeration. -/
def evaluationOrder (e : Enumeration graph) (keys : List Text) : Except Fault (List Text) := do
  let pending := e.members keys
  let degrees := e.listed.inDegrees pending
  let queue ← sortKeys (pending.filter fun key => degrees.find? key == some 0)
  let settled ← e.settle ⟨degrees, queue⟩ []
  return settled ++ (← sortKeys (pending.filter (· ∉ settled)))

/-- As the graph lists its sets, the run is that of the graph. -/
theorem settle_asListed (graph : Graph) (agenda : Agenda) (done : List Text) :
    (asListed graph).settle agenda done = graph.settle agenda done := by
  fun_induction Graph.settle graph agenda done with
  | case1 degrees done => rw [settle]
  | case2 degrees key queue done ih =>
      rw [settle]
      exact bind_congr_ok fun readers _ => ih readers

/-- As the graph lists its sets, the order of evaluation is that of the
graph. -/
theorem evaluationOrder_asListed (graph : Graph) (keys : List Text) :
    (asListed graph).evaluationOrder keys = graph.evaluationOrder keys := by
  unfold evaluationOrder Graph.evaluationOrder
  simp only [inDegrees_listed, settle_asListed]
  rfl

end Enumeration

-- ====================================================== cycles

section

variable {graph graph' : Graph} (hreads : ∀ cell, (graph.reads cell).Perm (graph'.reads cell))
include hreads

theorem reads_eq_nil_congr (cell : Text) : graph.reads cell = [] ↔ graph'.reads cell = [] := by
  rw [← List.length_eq_zero_iff, ← List.length_eq_zero_iff, (hreads cell).length_eq]

/-- The search for a cycle tries what a cell reads in the order of code
points, so it does not matter how the graph lists it. -/
theorem searchFrom_congr (walk : Walk) (finished : List Text) :
    graph.searchFrom walk finished = graph'.searchFrom walk finished := by
  have hsorted : ∀ cell, graph.sortedReads cell = graph'.sortedReads cell :=
    fun cell => Text.sortDistinct_congr (hreads cell)
  fun_induction searchFrom graph walk finished with
  | case1 finished => rw [searchFrom]
  | case2 cell walk finished ih => rw [searchFrom, ih]
  | case3 cell key keys walk finished hkey => rw [searchFrom, if_pos hkey]
  | case4 cell key keys walk finished hkey hdone ih =>
      rw [reads_eq_nil_congr hreads] at hdone
      rw [searchFrom, if_neg hkey, if_pos hdone, ih]
  | case5 cell key keys walk finished hkey hdone ih =>
      rw [reads_eq_nil_congr hreads] at hdone
      rw [searchFrom, if_neg hkey, if_neg hdone, ih, hsorted]

/-- From the same starts, graphs that read the same find the same
cycle. -/
theorem cycleFrom_congr (finished starts : List Text) :
    graph.cycleFrom finished starts = graph'.cycleFrom finished starts := by
  have hsorted : ∀ cell, graph.sortedReads cell = graph'.sortedReads cell :=
    fun cell => Text.sortDistinct_congr (hreads cell)
  induction starts generalizing finished with
  | nil => rfl
  | cons start starts ih =>
      simp only [cycleFrom, reads_eq_nil_congr hreads, searchFrom_congr hreads, hsorted, ih]

end

/-- Starts that read nothing are passed by: no walk from them takes a
step, and so none closes. -/
theorem cycleFrom_filter (graph : Graph) (finished starts : List Text) :
    graph.cycleFrom finished starts
      = graph.cycleFrom finished (starts.filter fun start => graph.reads start ≠ []) := by
  induction starts generalizing finished with
  | nil => rfl
  | cons start starts ih =>
      by_cases hstart : graph.reads start = []
      · rw [List.filter_cons_of_neg (by simpa using hstart), cycleFrom, if_pos (.inr hstart), ih]
      · rw [List.filter_cons_of_pos (by simpa using hstart)]
        simp only [cycleFrom, ih]

namespace Enumeration

variable {graph : Graph}

/-- A cycle of the graph, if there is one, along an enumeration. -/
def cycle? (e : Enumeration graph) : Except Fault (Option (List Text)) := do
  return e.listed.cycleFrom [] (← sortKeys e.nodes)

/-- Only the order of the nodes matters to the search, since what a cell
reads is sorted. -/
theorem cycle?_eq (e : Enumeration graph) :
    e.cycle? = (do return graph.cycleFrom [] (← sortKeys e.nodes)) := by
  have hreads : ∀ cell, (e.listed.reads cell).Perm (graph.reads cell) := by
    intro cell
    rw [reads_listed]
    exact e.perm_reads cell
  unfold cycle?
  simp only [cycleFrom_congr hreads]

/-- As the graph lists its sets, the cycle is the one that the graph
finds. -/
theorem cycle?_asListed (graph : Graph) : (asListed graph).cycle? = graph.cycle? :=
  cycle?_eq (asListed graph)

end Enumeration

end Graph

end Spreadsheet
