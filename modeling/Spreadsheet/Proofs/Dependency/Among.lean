/-
Reads among some cells.

# An order of some of the cells

The order of evaluation is asked for some cells, which need not be all of
the graph. What they read of each other decides the order; what they read
besides does not. Therefore a cycle that leads through other cells is no
obstacle, while a cell that reaches a cycle among the given ones is.

# A graph of their own

The reads among some cells are the edges of a graph of their own
(`reads_within`). What is known of cycles in graphs is so known of cycles
among these cells: a cell reaches no cycle among them just when every chain
of reads among them that starts there ends (`not_reachesCycleAmong_iff`).
Chains that end in the whole graph end among any of its cells
(`Founded.within`), but not the other way round.
-/
import Spreadsheet.Dependency.Order
import Spreadsheet.Proofs.Dependency.Cycles

namespace Spreadsheet.Graph

open Relation (TransGen ReflTransGen)

variable {graph : Graph} {keys : List Text} {key : Text}

-- ====================================================== lists without repetitions

/-- Members that are entered one after another are in, each once, with
those that were there. -/
theorem foldl_withMember (keys : List Text) {firsts : List Text} (h : firsts.Nodup) :
    (keys.foldl withMember firsts).Nodup ∧
      ∀ k, k ∈ keys.foldl withMember firsts ↔ k ∈ firsts ∨ k ∈ keys := by
  induction keys generalizing firsts with
  | nil => exact ⟨h, by simp⟩
  | cons key keys ih =>
      obtain ⟨hnodup, hmem⟩ := ih (nodup_withMember h key)
      refine ⟨hnodup, fun k => ?_⟩
      rw [List.foldl_cons, hmem, mem_withMember, List.mem_cons, or_assoc]

/-- Of repeated members only the first is left. -/
theorem nodup_firsts (keys : List Text) : (firsts keys).Nodup :=
  (foldl_withMember keys List.nodup_nil).1

theorem mem_firsts {keys : List Text} {k : Text} : k ∈ firsts keys ↔ k ∈ keys := by
  unfold firsts
  rw [(foldl_withMember keys List.nodup_nil).2]
  simp

-- ====================================================== reads and cycles among cells

theorem mem_inputsAmong {k : Text} :
    k ∈ graph.inputsAmong keys key ↔ graph.Reads key k ∧ k ∈ keys := by
  unfold inputsAmong Reads
  rw [List.mem_filter, decide_eq_true_iff]

/-- A cell reads another one, and both are among some cells. -/
def ReadsAmong (graph : Graph) (keys : List Text) (cell key : Text) : Prop :=
  cell ∈ keys ∧ key ∈ keys ∧ graph.Reads cell key

/-- A cell that lies on a cycle of reads among some cells. -/
def OnCycleAmong (graph : Graph) (keys : List Text) (key : Text) : Prop :=
  TransGen (graph.ReadsAmong keys) key key

/-- A cell that lies on a cycle of reads among some cells, or reads one,
directly or through some of them. -/
def ReachesCycleAmong (graph : Graph) (keys : List Text) (key : Text) : Prop :=
  ∃ k, ReflTransGen (graph.ReadsAmong keys) key k ∧ graph.OnCycleAmong keys k

theorem OnCycleAmong.mem (h : graph.OnCycleAmong keys key) : key ∈ keys := by
  obtain ⟨_, hreads, -⟩ := TransGen.head'_iff.mp h
  exact hreads.1

/-- Reads among cells do not depend on how the cells are listed. -/
theorem readsAmong_congr {keys' : List Text} (h : ∀ k, k ∈ keys ↔ k ∈ keys') :
    graph.ReadsAmong keys = graph.ReadsAmong keys' := by
  funext cell key
  unfold ReadsAmong
  rw [h, h]

/-- The graph of the reads among some cells. -/
def within (graph : Graph) (keys : List Text) : Graph where
  entries := (firsts keys).map fun key => (key, graph.inputsAmong (firsts keys) key)
  distinct := by
    unfold Entries.names
    rw [List.map_map]
    exact (List.map_id _).symm ▸ nodup_firsts keys
  distinct_reads := by
    intro entry hentry
    obtain ⟨k, -, rfl⟩ := List.mem_map.mp hentry
    exact (graph.nodup_reads k).filter _

/-- The edges of the graph of some cells are the reads among them. What
they read outside is left out on both sides. -/
theorem reads_within (graph : Graph) (keys : List Text) :
    (graph.within keys).Reads = graph.ReadsAmong keys := by
  funext cell key
  have hfind : (graph.within keys).entries.find? cell
      = if cell ∈ firsts keys then some (graph.inputsAmong (firsts keys) cell) else none :=
    Entries.find?_ofKeys ..
  rw [Reads, reads, hfind]
  unfold ReadsAmong
  by_cases hcell : cell ∈ keys
  · rw [if_pos (mem_firsts.mpr hcell)]
    simp [hcell, mem_firsts, mem_inputsAmong, and_comm]
  · rw [if_neg (fun h => hcell (mem_firsts.mp h))]
    simp [hcell]

/-- A cell reaches no cycle among some cells just when every chain of
reads among them that starts there ends. -/
theorem not_reachesCycleAmong_iff :
    ¬graph.ReachesCycleAmong keys key ↔ (graph.within keys).Founded key := by
  rw [← grounded_iff_founded]
  unfold Grounded OnCycle ReachesCycleAmong OnCycleAmong
  rw [reads_within]
  push Not
  exact Iff.rfl

/-- Chains of reads that all end in a graph end among any of its
cells. -/
theorem Founded.within (h : graph.Founded key) (keys : List Text) :
    (graph.within keys).Founded key := by
  refine h.of_subgraph (fun _ => True) (fun k _ r hr => ⟨?_, trivial⟩) trivial
  rw [reads_within] at hr
  exact hr.2.2

/-- Who reads a cell that reaches a cycle reaches that cycle. -/
theorem ReachesCycleAmong.of_reads {k : Text} (h : graph.ReachesCycleAmong keys k)
    (hreads : graph.ReadsAmong keys key k) : graph.ReachesCycleAmong keys key := by
  obtain ⟨c, hpath, hcycle⟩ := h
  exact ⟨c, ReflTransGen.head hreads hpath, hcycle⟩

end Spreadsheet.Graph
