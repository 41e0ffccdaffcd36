/-
Graphs whose keys can all be placed.

# Where a question fails

A question to a graph fails only where a key cannot be put in the order of
the grid: its row has more digits than a number may be read from. Where
every key can be placed (`Legible`), the order of evaluation is found
(`evaluationOrder_ok`), and so is a cycle, or that there is none
(`cycle?_ok`). The keys that are asked about have to be placed as well,
since they need not be keys of the graph.

# Along every enumeration

The order in which the sets are gone through has no part in this: sorting
fails for a list of keys if it fails for one of them, wherever that one
stands.

# What keeps a graph legible

Reads between keys that can be placed keep a graph legible
(`Legible.addRead`), so a graph that grows by such reads answers every
question.
-/
import Spreadsheet.Proofs.Dependency.Order

namespace Spreadsheet.Graph

variable {graph : Graph}

/-- A graph whose cells, and whatever they read, are placed. -/
structure Legible (graph : Graph) : Prop where
  names : ∀ key ∈ graph.entries.names, Placed key
  reads : ∀ cell key, graph.Reads cell key → Placed key

/-- Every key that takes part in a legible graph can be placed. -/
theorem Legible.placed_of_mem_nodes (h : graph.Legible) {key : Text} (hkey : key ∈ graph.nodes) :
    Placed key := by
  rcases mem_nodes.mp hkey with hname | ⟨cell, hreads⟩
  · exact h.names key hname
  · exact h.reads cell key hreads

-- ====================================================== along an enumeration

namespace Enumeration

variable (e : Enumeration graph) (h : graph.Legible)
include h

/-- A run ends, since the readers of every cell can be put in order.
Sorting is the only step that may fail. -/
theorem settle_ok (agenda : Agenda) (done : List Text) :
    ∃ settled, e.settle agenda done = .ok settled := by
  fun_induction settle e agenda done with
  | case1 degrees done => exact ⟨_, rfl⟩
  | case2 degrees key queue done ih =>
      obtain ⟨readers, hreaders⟩ := sortKeys_ok fun reader hreader =>
        h.names reader (mem_names_of_reads (e.mem_readers.mp hreader))
      obtain ⟨settled, hsettled⟩ := ih readers
      exact ⟨settled, bind_eq_ok.mpr ⟨readers, hreaders, hsettled⟩⟩

/-- Keys that are placed can be put in an order of evaluation, in a
legible graph and along every enumeration of it. -/
theorem evaluationOrder_ok {keys : List Text} (hkeys : ∀ key ∈ keys, Placed key) :
    ∃ order, e.evaluationOrder keys = .ok order := by
  have hsort : ∀ p : Text → Bool, ∃ sorted, sortKeys ((e.members keys).filter p) = .ok sorted :=
    fun p => sortKeys_ok fun key hkey => hkeys key (e.mem_members.mp (List.mem_filter.mp hkey).1)
  obtain ⟨queue, hqueue⟩ := hsort fun key =>
    (e.listed.inDegrees (e.members keys)).find? key == some 0
  obtain ⟨settled, hsettled⟩ := e.settle_ok h ⟨e.listed.inDegrees (e.members keys), queue⟩ []
  obtain ⟨stuck, hstuck⟩ := hsort fun key => key ∉ settled
  exact ⟨settled ++ stuck, bind_eq_ok.mpr ⟨queue, hqueue,
    bind_eq_ok.mpr ⟨settled, hsettled, bind_eq_ok.mpr ⟨stuck, hstuck, rfl⟩⟩⟩⟩

/-- The search for a cycle has an outcome, whether it finds one or
not. -/
theorem cycle?_ok : ∃ cycle, e.cycle? = .ok cycle := by
  have hnodes : ∀ key ∈ e.nodes, Placed key := fun key hkey =>
    h.placed_of_mem_nodes (Text.mem_sortDistinct.mp (e.perm_nodes.mem_iff.mp hkey))
  obtain ⟨sorted, hsorted⟩ := sortKeys_ok hnodes
  unfold cycle?
  rw [hsorted]
  exact ⟨_, rfl⟩

end Enumeration

-- ====================================================== as the graph lists them

/-- Keys that are placed can be put in an order of evaluation by the
graph. -/
theorem evaluationOrder_ok (h : graph.Legible) {keys : List Text}
    (hkeys : ∀ key ∈ keys, Placed key) : ∃ order, graph.evaluationOrder keys = .ok order := by
  rw [← Enumeration.evaluationOrder_asListed]
  exact (Enumeration.asListed graph).evaluationOrder_ok h hkeys

/-- A legible graph finds a cycle, or that there is none. -/
theorem cycle?_ok (h : graph.Legible) : ∃ cycle, graph.cycle? = .ok cycle := by
  rw [← Enumeration.cycle?_asListed]
  exact (Enumeration.asListed graph).cycle?_ok h

-- ====================================================== legible graphs

/-- A graph without cells is legible. -/
theorem legible_empty : empty.Legible where
  names := nofun
  reads := nofun

/-- A read between keys that are placed keeps a graph legible. A key
with too long a row would not, and later requests would fail on it. -/
theorem Legible.addRead {cell key : Text} (h : graph.Legible) (hcell : Placed cell)
    (hkey : Placed key) : (graph.addRead cell key).Legible where
  names k hk := by
    rcases mem_names_addRead.mp hk with rfl | hk
    · exact hcell
    · exact h.names k hk
  reads k r hr := by
    rcases reads_addRead.mp hr with hr | ⟨-, rfl⟩
    · exact h.reads k r hr
    · exact hkey

end Spreadsheet.Graph
