/-
What a change reaches.

# The search

The search for the dependents of a key visits cells one after another and
gathers their readers. A reader that was found before is not visited again,
so the search ends, and a key that reads itself through others is found like
any other cell.

# What the search keeps

Along the search every cell found reads the key, and the readers of every
cell that is done with are found (`Spreading`). A visit keeps both
(`Spreading.step`), in whatever order readers are gone through, since the
relation speaks about members only (`Spreading.of_perm`). With nothing left
to visit, the cells found are closed under reading.

# What this closes

At its end the dependents are exactly the cells that read the key, directly
or through others (`mem_dependents`).
-/
import Mathlib.Logic.Relation
import Spreadsheet.Dependency.Order
import Spreadsheet.Proofs.Dependency.Edges

namespace Spreadsheet.Graph

open Relation (TransGen)

variable {graph : Graph} {start : Text} {visit found : List Text}

-- ====================================================== the search

/-- A search for what reads a start, with the cells to visit and the
cells found. -/
structure Spreading (graph : Graph) (start : Text) (visit found : List Text) : Prop where
  /-- What is found reads the start. -/
  sound : ∀ k ∈ found, TransGen graph.Reads k start
  /-- Only the start and what is found are visited. -/
  known : ∀ k ∈ visit, k = start ∨ k ∈ found
  /-- What is not to be visited any more has its readers found. -/
  closed : ∀ k, k = start ∨ k ∈ found → k ∈ visit ∨ ∀ reader, graph.Reads reader k → reader ∈ found

/-- At the start only the key itself is to be visited. -/
theorem spreading_start (graph : Graph) (start : Text) : Spreading graph start [start] [] where
  sound := nofun
  known _ hk := .inl (List.mem_singleton.mp hk)
  closed _ hk := .inl (List.mem_singleton.mpr (hk.resolve_right List.not_mem_nil))

/-- The readers of a key that are not found yet. -/
def freshReaders (graph : Graph) (key : Text) (found : List Text) : List Text :=
  (graph.readers key).filter (· ∉ found)

theorem mem_freshReaders {key k : Text} :
    k ∈ graph.freshReaders key found ↔ graph.Reads k key ∧ k ∉ found := by
  unfold freshReaders
  rw [List.mem_filter, mem_readers, decide_eq_true_iff]

/-- A visit keeps the search in order. Fresh readers are found and
queued at once, so each cell is visited one time only. -/
theorem Spreading.step {key : Text} (h : Spreading graph start (key :: visit) found) :
    Spreading graph start (graph.freshReaders key found ++ visit)
      (found ++ graph.freshReaders key found) where
  sound := by
    intro k hk
    rcases List.mem_append.mp hk with hk | hk
    · exact h.sound k hk
    · have hreads := (mem_freshReaders.mp hk).1
      rcases h.known key (List.mem_cons_self ..) with rfl | hkey
      · exact TransGen.single hreads
      · exact TransGen.head hreads (h.sound key hkey)
  known := by
    intro k hk
    rcases List.mem_append.mp hk with hk | hk
    · exact .inr (List.mem_append_right _ hk)
    · exact (h.known k (List.mem_cons_of_mem _ hk)).imp_right (List.mem_append_left _)
  closed := by
    intro k hk
    have hold : k = start ∨ k ∈ found ∨ k ∈ graph.freshReaders key found :=
      hk.imp_right List.mem_append.mp
    by_cases hfresh : k ∈ graph.freshReaders key found
    · exact .inl (List.mem_append_left _ hfresh)
    · rcases h.closed k (hold.imp_right (·.resolve_right hfresh)) with hvisit | hreaders
      · rcases List.mem_cons.mp hvisit with rfl | hvisit
        · -- the cell just visited: its readers were found before or are fresh
          refine .inr fun reader hreader => ?_
          by_cases hfound : reader ∈ found
          · exact List.mem_append_left _ hfound
          · exact List.mem_append_right _ (mem_freshReaders.mpr ⟨hreader, hfound⟩)
        · exact .inl (List.mem_append_right _ hvisit)
      · exact .inr fun reader hreader => List.mem_append_left _ (hreaders reader hreader)

/-- A search stays in order when what is to be visited is listed in
another way, and what is found as well. -/
theorem Spreading.of_perm {start : Text} {visit visit' found found' : List Text}
    (h : Spreading graph start visit found) (hvisit : visit'.Perm visit)
    (hfound : found'.Perm found) : Spreading graph start visit' found' where
  sound k hk := h.sound k (hfound.mem_iff.mp hk)
  known k hk := (h.known k (hvisit.mem_iff.mp hk)).imp_right hfound.mem_iff.mpr
  closed k hk := by
    simp only [hvisit.mem_iff, hfound.mem_iff] at hk ⊢
    exact h.closed k hk

/-- A search with nothing left to visit has found what reads the
start. -/
theorem Spreading.mem_found (h : Spreading graph start [] found) {k : Text} :
    k ∈ found ↔ TransGen graph.Reads k start := by
  have hreaders : ∀ m, m = start ∨ m ∈ found → ∀ reader, graph.Reads reader m → reader ∈ found :=
    fun m hm => (h.closed m hm).resolve_left List.not_mem_nil
  constructor
  · exact h.sound k
  · intro hk
    induction hk using TransGen.head_induction_on with
    | single hreads => exact hreaders start (.inl rfl) _ hreads
    | head hreads _ ih => exact hreaders _ (.inr ih) _ hreads

-- ====================================================== dependents

/-- The search ends in order, with nothing left to visit. Then whatever
reads a found cell was found too. -/
theorem spread_spec (h : Spreading graph start visit found) :
    Spreading graph start [] (graph.spread visit found) := by
  fun_induction spread graph visit found with
  | case1 found => exact h
  | case2 key keys found fresh ih => exact ih h.step

/-- The dependents of a key are what a search from the key has found. -/
theorem spreading_dependents (graph : Graph) (key : Text) :
    Spreading graph key [] (graph.dependents key) :=
  spread_spec (spreading_start graph key)

/-- The dependents of a key are the cells that read it, directly or
through others. -/
theorem mem_dependents {key k : Text} : k ∈ graph.dependents key ↔ TransGen graph.Reads k key :=
  (spreading_dependents graph key).mem_found

/-- What reads a dependent of a key, or the key, is a dependent of
it. -/
theorem mem_dependents_of_reads {key k r : Text} (hreads : graph.Reads k r)
    (hr : r = key ∨ r ∈ graph.dependents key) : k ∈ graph.dependents key := by
  rw [mem_dependents] at hr ⊢
  rcases hr with rfl | hr
  · exact TransGen.single hreads
  · exact TransGen.head hreads hr

end Spreadsheet.Graph
