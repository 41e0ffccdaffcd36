/-
The search for a cycle is right.

# The walk

The search goes along reads as far as it can. It keeps the walk from its
start, each cell with the reads that are still to be tried, and the cells
that it has finished with. A step back onto the walk closes a cycle; where
nothing is left to try, the walk takes a step back.

# What is known along a search

What is known along a search is this (`Walked`): the walk leads along reads
and meets no cell twice, and at each of its cells every read is either still
to be tried, or reaches no cycle. The read that is being followed counts as
still to be tried, because what it reaches is not known before the search
comes back from it. A step back onto the walk therefore closes a path
(`Walked.close`), and a cell with nothing left to try reaches no cycle, so
it may be passed by from then on (`Walked.leave`).

# What this closes

When the search ends without a cycle, this is known of all cells, and the
graph has none (`cycle?_spec`). Nodes that are no cells read nothing, and
the nodes may be tried in any order, so the same is true along every
enumeration of the graph (`Enumeration.cycle?_spec`).
-/
import Mathlib.Data.List.Chain
import Spreadsheet.Proofs.Dependency.Cycles
import Spreadsheet.Proofs.Dependency.Enumeration
import Spreadsheet.Proofs.Reference.Sorting

namespace Spreadsheet.Graph

open Relation (TransGen)

variable {graph : Graph} {walk : Walk} {finished keys : List Text} {cell key : Text}

-- ====================================================== closed paths

/-- A path that leads along a relation back to its start and comes to no
other place twice. -/
structure ClosedPath (r : Text → Text → Prop) (path : List Text) : Prop where
  /-- It takes a step at least. -/
  length : 2 ≤ path.length
  linked : path.IsChain r
  closed : path.head? = path.getLast?
  distinct : path.dropLast.Nodup

/-- A closed path leads from its start back to it. Its last place is the
first one again, so there is at least one step. -/
theorem ClosedPath.exists_cycle {r : Text → Text → Prop} {path : List Text}
    (h : ClosedPath r path) : ∃ k, TransGen r k k := by
  obtain ⟨hlength, hlinked, hclosed, -⟩ := h
  match path with
  | [] => cases hlength
  | [_] =>
      rw [List.length_singleton] at hlength
      omega
  | first :: second :: rest =>
      obtain ⟨hstep, hrest⟩ := List.isChain_cons_cons.mp hlinked
      have hlast : (second :: rest).getLast (List.cons_ne_nil _ _) = first := by
        rw [List.head?_cons, List.getLast?_cons_cons,
          List.getLast?_eq_some_getLast (List.cons_ne_nil _ _)] at hclosed
        exact (Option.some.inj hclosed).symm
      exact ⟨first, TransGen.head' hstep (List.relationReflTransGen_of_exists_isChain_cons rest
        hrest hlast)⟩

/-- From every place on a closed path a step leads on, from the last one
as from the first, which is the same place. -/
theorem ClosedPath.exists_step {r : Text → Text → Prop} {path : List Text} (h : ClosedPath r path)
    {place : Text} (hplace : place ∈ path) : ∃ next, r place next := by
  obtain ⟨before, after, rfl⟩ := List.append_of_mem hplace
  obtain ⟨hlength, hlinked, hclosed, -⟩ := h
  match after with
  | next :: after =>
      exact ⟨next, (List.isChain_cons_cons.mp hlinked.right_of_append).1⟩
  | [] =>
      -- the last place is the first, and a step leads on from there
      match before with
      | [] =>
          rw [List.nil_append, List.length_singleton] at hlength
          omega
      | first :: before =>
          rw [List.getLast?_concat] at hclosed
          obtain rfl : first = place := Option.some.inj hclosed
          match before with
          | [] => exact ⟨first, hlinked.rel⟩
          | next :: before => exact ⟨next, hlinked.rel⟩

-- ====================================================== walks

/-- The reads of a cell that are still to be tried; all others reach no
cycle. -/
structure Tried (graph : Graph) (cell : Text) (keys : List Text) : Prop where
  left : ∀ r ∈ keys, graph.Reads cell r
  done : ∀ r, graph.Reads cell r → r ∈ keys ∨ graph.Founded r

/-- A walk of the search. Entering a cell follows the first read that is
left to try; that read counts as left to try until the cell is left
again. -/
inductive Walked (graph : Graph) : Walk → Prop
  | nil : Walked graph []
  | start {cell : Text} {keys : List Text} (tried : Tried graph cell keys) :
      Walked graph [(cell, keys)]
  | enter {cell key : Text} {keys others : List Text} {walk : Walk}
      (fresh : key ∉ Walk.cells ((cell, keys) :: walk)) (tried : Tried graph key others)
      (before : Walked graph ((cell, key :: keys) :: walk)) :
      Walked graph ((key, others) :: (cell, keys) :: walk)

/-- When a cell is entered, all its reads are to be tried. -/
theorem tried_sortedReads (graph : Graph) (cell : Text) :
    Tried graph cell (graph.sortedReads cell) where
  left _ hr := Text.mem_sortDistinct.mp hr
  done _ hr := .inl (Text.mem_sortDistinct.mpr hr)

/-- A read that reaches no cycle need not be tried any more, and counts
as tried from then on. -/
theorem Tried.skip (h : Tried graph cell (key :: keys)) (hkey : graph.Founded key) :
    Tried graph cell keys where
  left r hr := h.left r (List.mem_cons_of_mem _ hr)
  done r hr := by
    rcases h.done r hr with hmem | hfounded
    · rcases List.mem_cons.mp hmem with rfl | hmem
      · exact .inr hkey
      · exact .inl hmem
    · exact .inr hfounded

/-- A cell with nothing left to try reaches no cycle. -/
theorem Tried.founded (h : Tried graph cell []) : graph.Founded cell :=
  Founded.of_reads fun r hr => (h.done r hr).resolve_left List.not_mem_nil

namespace Walked

/-- At the end of a walk the reads are tried as at every cell of it. -/
theorem tried (h : Walked graph ((cell, keys) :: walk)) : Tried graph cell keys := by
  cases h with
  | start tried => exact tried
  | enter _ tried _ => exact tried

/-- A read that reaches no cycle may be passed by: the walk stays, and
one read less is to be tried at its end. -/
theorem skip (h : Walked graph ((cell, key :: keys) :: walk)) (hkey : graph.Founded key) :
    Walked graph ((cell, keys) :: walk) := by
  cases h with
  | start tried => exact .start (tried.skip hkey)
  | enter fresh tried before => exact .enter fresh (tried.skip hkey) before

/-- A cell with nothing left to try reaches no cycle, and the walk goes
on at the cell before it. -/
theorem leave (h : Walked graph ((cell, []) :: walk)) :
    graph.Founded cell ∧ Walked graph walk := by
  refine ⟨h.tried.founded, ?_⟩
  cases h with
  | start _ => exact .nil
  | enter _ tried before => exact before.skip tried.founded

/-- A walk meets no cell twice, since a step onto a cell of the walk
closes a path instead. -/
theorem nodup (h : Walked graph walk) : walk.cells.Nodup := by
  induction h with
  | nil => exact List.nodup_nil
  | start _ => exact List.nodup_singleton _
  | enter fresh _ _ ih => exact List.nodup_cons.mpr ⟨fresh, ih⟩

/-- Each cell of a walk is read by the one before it, which is the next
in the list. -/
theorem linked (h : Walked graph walk) :
    walk.cells.IsChain fun later earlier => graph.Reads earlier later := by
  induction h with
  | nil => exact List.isChain_nil
  | start _ => exact List.isChain_singleton _
  | enter _ _ before ih =>
      exact List.isChain_cons_cons.mpr ⟨before.tried.left _ (List.mem_cons_self ..), ih⟩

/-- A step back onto the walk closes a path: the walk from that cell on,
and the cell once more. The walk is kept latest first, so it is turned
around before the cell is looked up. -/
theorem close (h : Walked graph ((cell, key :: keys) :: walk))
    (hkey : key ∈ Walk.cells ((cell, keys) :: walk)) :
    ClosedPath graph.Reads (closeCycle ((cell, keys) :: walk) key) := by
  have hnodup : (Walk.cells ((cell, keys) :: walk)).Nodup := h.nodup
  have hreads : graph.Reads cell key := h.tried.left key (List.mem_cons_self ..)
  have hlinked : (key :: Walk.cells ((cell, keys) :: walk)).IsChain
      fun later earlier => graph.Reads earlier later :=
    List.isChain_cons_cons.mpr ⟨hreads, h.linked⟩
  -- the path goes back along the walk, as far as the key
  obtain ⟨back, rest, hback, hnew⟩ := List.eq_append_cons_of_mem hkey
  have htake : (Walk.cells ((cell, keys) :: walk)).takeWhile (· ≠ key) = back := by
    rw [hback, List.takeWhile_append_of_pos, List.takeWhile_cons_of_neg, List.append_nil]
    · simp
    · intro k hk
      exact decide_eq_true fun heq => hnew (heq ▸ hk)
  have hpath : closeCycle ((cell, keys) :: walk) key = (key :: back ++ [key]).reverse := by
    unfold closeCycle
    rw [htake]
    simp
  rw [hback] at hnodup hlinked
  rw [hpath]
  refine ⟨by simp, List.isChain_reverse.mpr ?_, ?_, ?_⟩
  · have hsplit : key :: (back ++ key :: rest) = (key :: back ++ [key]) ++ rest := by simp
    rw [hsplit] at hlinked
    exact hlinked.left_of_append
  · rw [List.head?_reverse, List.getLast?_reverse, List.getLast?_concat, List.cons_append,
      List.head?_cons]
  · rw [List.reverse_concat, List.reverse_cons, ← List.cons_append, List.dropLast_concat]
    exact List.nodup_cons.mpr ⟨fun hk => hnew (List.mem_reverse.mp hk),
      List.nodup_reverse.mpr (List.nodup_append.mp hnodup).1⟩

end Walked

-- ====================================================== the search

/-- What a search that goes on from a walk finds: a closed path; or
none, and then nothing on the walk and nothing that is finished at the
end reaches a cycle. -/
inductive Found (graph : Graph) (walk : Walk) : Option (List Text) × List Text → Prop
  | path {path finished : List Text} (closed : ClosedPath graph.Reads path) :
      Found graph walk (some path, finished)
  | none {finished : List Text} (cells : ∀ k ∈ walk.cells, graph.Founded k)
      (done : ∀ k ∈ finished, graph.Founded k) : Found graph walk (none, finished)

/-- What is found from one walk is found from another, if the cells of
the one answer for those of the other. -/
theorem Found.of_walk {walk' : Walk} {outcome : Option (List Text) × List Text}
    (h : Found graph walk outcome)
    (hcells : (∀ k ∈ walk.cells, graph.Founded k) → ∀ k ∈ walk'.cells, graph.Founded k) :
    Found graph walk' outcome := by
  cases h with
  | path closed => exact .path closed
  | none cells done => exact .none (hcells cells) done

/-- What reads nothing, or is finished, reaches no cycle. In both cases
the search passes it by. -/
theorem founded_of_done (hfinished : ∀ k ∈ finished, graph.Founded k)
    (h : key ∈ finished ∨ graph.reads key = []) : graph.Founded key := by
  rcases h with h | h
  · exact hfinished key h
  · refine Founded.of_reads fun r hr => ?_
    unfold Reads at hr
    rw [h] at hr
    cases hr

/-- Going on from a walk, the search finds what it should. The induction
is that of the search, and its invariant is the walk. -/
theorem searchFrom_spec (hwalk : Walked graph walk) (hfinished : ∀ k ∈ finished, graph.Founded k) :
    Found graph walk (graph.searchFrom walk finished) := by
  fun_induction searchFrom graph walk finished with
  | case1 finished => exact .none (List.forall_mem_nil _) hfinished
  | case2 cell walk finished ih =>
      -- all reads of the cell have been tried
      obtain ⟨hcell, hwalk⟩ := hwalk.leave
      refine (ih hwalk (List.forall_mem_cons.mpr ⟨hcell, hfinished⟩)).of_walk fun hcells => ?_
      exact List.forall_mem_cons.mpr ⟨hcell, hcells⟩
  | case3 cell key keys walk finished hkey =>
      exact .path (hwalk.close (Walk.mem_cells_cons.mpr hkey))
  | case4 cell key keys walk finished _ hdone ih =>
      have hkey := founded_of_done hfinished hdone
      exact (ih (hwalk.skip hkey) hfinished).of_walk fun hcells => hcells
  | case5 cell key keys walk finished hkey _ ih =>
      -- the search enters the key
      have hfresh : key ∉ Walk.cells ((cell, keys) :: walk) :=
        fun hmem => hkey (Walk.mem_cells_cons.mp hmem)
      have hentered := Walked.enter hfresh (tried_sortedReads graph key) hwalk
      exact (ih hentered hfinished).of_walk fun hcells => (List.forall_mem_cons.mp hcells).2

/-- From some starts on, a closed path is found, or no start reaches a
cycle. -/
theorem cycleFrom_spec (hfinished : ∀ k ∈ finished, graph.Founded k) (starts : List Text) :
    (∀ path, graph.cycleFrom finished starts = some path → ClosedPath graph.Reads path) ∧
      (graph.cycleFrom finished starts = none → ∀ k ∈ starts, graph.Founded k) := by
  induction starts generalizing finished with
  | nil =>
      refine ⟨fun path h => ?_, fun _ => List.forall_mem_nil _⟩
      cases h
  | cons start starts ih =>
      rw [cycleFrom]
      split
      · next hdone =>
        obtain ⟨hpath, hnone⟩ := ih hfinished
        refine ⟨hpath, fun h => List.forall_mem_cons.mpr ⟨?_, hnone h⟩⟩
        exact founded_of_done hfinished hdone
      · have hfound := searchFrom_spec (.start (tried_sortedReads graph start)) hfinished
        split
        · next path _ hsearch =>
          rw [hsearch] at hfound
          cases hfound with
          | path closed =>
              refine ⟨fun other h => ?_, fun h => ?_⟩
              · cases h
                exact closed
              · cases h
        · next finished' hsearch =>
          rw [hsearch] at hfound
          cases hfound with
          | none cells done =>
              obtain ⟨hpath, hnone⟩ := ih done
              refine ⟨hpath, fun h => List.forall_mem_cons.mpr ⟨?_, hnone h⟩⟩
              exact cells start (List.mem_singleton_self start)

/-- A search that starts at every node finds no cycle just when there is
none, and what it finds is a closed path. -/
theorem cycleFrom_nodes_spec {starts : List Text} (hstarts : ∀ k, k ∈ graph.nodes → k ∈ starts) :
    (graph.cycleFrom [] starts = none ↔ graph.Acyclic) ∧
      ∀ path, graph.cycleFrom [] starts = some path → ClosedPath graph.Reads path := by
  have hfinished : ∀ k ∈ ([] : List Text), graph.Founded k := List.forall_mem_nil _
  obtain ⟨hpath, hnone⟩ := cycleFrom_spec hfinished starts
  refine ⟨⟨fun h => acyclic_of_founded fun key => ?_, fun hacyclic => ?_⟩, hpath⟩
  · by_cases hkey : key ∈ graph.entries.names
    · exact hnone h key (hstarts key (mem_nodes.mpr (.inl hkey)))
    · exact founded_of_not_mem hkey
  · cases hcycle : graph.cycleFrom [] starts with
    | none => rfl
    | some path =>
        obtain ⟨k, hk⟩ := (hpath path hcycle).exists_cycle
        exact absurd hk (hacyclic k)

/-- What a search for a cycle finds is right: a closed path of reads, or
none where there is none. -/
structure Finds (graph : Graph) (outcome : Option (List Text)) : Prop where
  none_iff : outcome = none ↔ graph.Acyclic
  closed : ∀ path, outcome = some path → ClosedPath graph.Reads path

/-- Whatever the order in which the nodes are gone through, the search
finds what is right. -/
theorem Enumeration.cycle?_spec (e : Enumeration graph) {outcome : Option (List Text)}
    (h : e.cycle? = .ok outcome) : graph.Finds outcome := by
  rw [e.cycle?_eq] at h
  obtain ⟨starts, hstarts, h⟩ := bind_eq_ok.mp h
  cases h
  have hnodes : ∀ k, k ∈ graph.nodes → k ∈ starts := by
    intro k hk
    rw [(perm_of_sortKeys hstarts).mem_iff, e.perm_nodes.mem_iff, Text.mem_sortDistinct]
    exact hk
  obtain ⟨hnone, hclosed⟩ := cycleFrom_nodes_spec hnodes
  exact ⟨hnone, hclosed⟩

/-- The search finds no cycle just when there is none, and what it finds
is a closed path. -/
theorem cycle?_spec {outcome : Option (List Text)} (h : graph.cycle? = .ok outcome) :
    graph.Finds outcome := by
  rw [← Enumeration.cycle?_asListed] at h
  exact (Enumeration.asListed graph).cycle?_spec h

end Spreadsheet.Graph
