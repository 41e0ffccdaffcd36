/-
Enumerations agree.

# What may differ

Two graphs with the same cells and edges stand for the same sets, whatever
order their cells came in (`SameEdges`). Along any enumerations of the two
the same cells are found to read a key (`mem_dependents_congr`). The cells
of what a change reaches may be found in another order, so this is a
statement about members and not about lists.

# What may not

Everything else that comes out of a set is sorted before it can matter.
Where no two cells of the graph have one place, sorting leaves no choice,
and so there is the same order of evaluation (`evaluationOrder_congr`) and
the same cycle (`cycle?_congr`). What is read may share its place with
another key: such keys are no cells of the graph and read nothing, so the
search for a cycle passes them by in either order.

# The two runs

The two runs of the order of evaluation go side by side. Between them holds
that they have the same queue and the same count of inputs for every cell
(`SameAgenda`); the collections in which the counts are kept may be listed
in different orders, so they are compared by what is found in them. A step
of both keeps this, and the runs end together (`settle_congr`).
-/
import Spreadsheet.Proofs.Dependency.Enumeration
import Spreadsheet.Proofs.Dependency.Legible

namespace Spreadsheet.Graph

variable {graph graph' : Graph}

/-- Two graphs have the same cells and the same edges. -/
structure SameEdges (graph graph' : Graph) : Prop where
  mem_names : ∀ key, key ∈ graph.entries.names ↔ key ∈ graph'.entries.names
  reads : ∀ cell key, graph.Reads cell key ↔ graph'.Reads cell key

theorem SameEdges.refl (graph : Graph) : SameEdges graph graph :=
  ⟨fun _ => Iff.rfl, fun _ _ => Iff.rfl⟩

-- ====================================================== agendas

/-- Two agendas have the same queue, and let every cell wait for the
same number of inputs. -/
structure SameAgenda (agenda agenda' : Agenda) : Prop where
  queue : agenda.queue = agenda'.queue
  degrees : ∀ key, agenda.degrees.find? key = agenda'.degrees.find? key

/-- Releasing a reader keeps two agendas the same. They list the degrees
in orders of their own, so they are compared key by key. -/
theorem SameAgenda.release {agenda agenda' : Agenda} (h : SameAgenda agenda agenda')
    (key reader : Text) : SameAgenda (agenda.release key reader) (agenda'.release key reader) := by
  unfold Agenda.release
  rw [← h.degrees, ← h.queue]
  cases agenda.degrees.find? reader with
  | none => exact h
  | some degree =>
      dsimp only
      split
      · exact h
      · refine ⟨rfl, fun k => ?_⟩
        rw [Entries.find?_put, Entries.find?_put, h.degrees]

theorem SameAgenda.foldl_release {agenda agenda' : Agenda} (h : SameAgenda agenda agenda')
    (key : Text) (readers : List Text) :
    SameAgenda (readers.foldl (Agenda.release key) agenda)
      (readers.foldl (Agenda.release key) agenda') := by
  induction readers generalizing agenda agenda' with
  | nil => exact h
  | cons reader readers ih => exact ih (h.release key reader)

-- ====================================================== two enumerations

namespace Enumeration

/-- Two sets with the same members are listed in the same way, up to the
order. -/
theorem perm_of_mem_iff {listing listing' members members' : List Text}
    (h : listing.Perm members) (h' : listing'.Perm members') (hdistinct : members.Nodup)
    (hdistinct' : members'.Nodup) (hmem : ∀ key, key ∈ members ↔ key ∈ members') :
    listing.Perm listing' :=
  h.trans (((List.perm_ext_iff_of_nodup hdistinct hdistinct').mpr hmem).trans h'.symm)

section

variable (e : Enumeration graph) (e' : Enumeration graph') (hsame : SameEdges graph graph')
include hsame

/-- Nodes are the cells and what they read, so they are the same in
both. -/
theorem perm_nodes_of_sameEdges : e.nodes.Perm e'.nodes := by
  refine perm_of_mem_iff e.perm_nodes e'.perm_nodes (Text.nodup_sortDistinct _)
    (Text.nodup_sortDistinct _) fun key => ?_
  simp only [Text.mem_sortDistinct, mem_nodes, hsame.mem_names, hsame.reads]

theorem perm_reads_of_sameEdges (cell : Text) : (e.reads cell).Perm (e'.reads cell) :=
  perm_of_mem_iff (e.perm_reads cell) (e'.perm_reads cell) (graph.nodup_reads cell)
    (graph'.nodup_reads cell) (hsame.reads cell)

/-- The readers of a key are the same in both, in some order. -/
theorem perm_readers_of_sameEdges (key : Text) : (e.readers key).Perm (e'.readers key) := by
  refine perm_of_mem_iff (e.perm_readers key) (e'.perm_readers key) (graph.nodup_readers key)
    (graph'.nodup_readers key) fun cell => ?_
  rw [Graph.mem_readers, Graph.mem_readers, hsame.reads]

/-- What a change reaches is the same in both, although it may be found
in another order. -/
theorem mem_dependents_congr (key k : Text) : k ∈ e.dependents key ↔ k ∈ e'.dependents key := by
  have hreads : graph.Reads = graph'.Reads := by
    funext cell key
    exact propext (hsame.reads cell key)
  rw [e.mem_dependents, e'.mem_dependents, hreads]

end

theorem perm_members_of_mem_iff (e : Enumeration graph) (e' : Enumeration graph')
    {keys keys' : List Text} (h : ∀ key, key ∈ keys ↔ key ∈ keys') :
    (e.members keys).Perm (e'.members keys') := by
  refine perm_of_mem_iff (e.perm_members keys) (e'.perm_members keys') (nodup_firsts keys)
    (nodup_firsts keys') fun key => ?_
  rw [mem_firsts, mem_firsts, h]

-- ====================================================== the order of evaluation

section

variable (e : Enumeration graph) (e' : Enumeration graph') (hsame : SameEdges graph graph')
  (hplaces : DistinctPlaces graph.entries.names)
include hsame

/-- A cell reads equally many of the same cells, so it waits for as many
of them. -/
theorem find?_inDegrees_congr {pending pending' : List Text} (hpending : pending.Perm pending')
    (key : Text) : (e.listed.inDegrees pending).find? key
      = (e'.listed.inDegrees pending').find? key := by
  have hinputs : (e.listed.inputsAmong pending key).Perm (e'.listed.inputsAmong pending' key) := by
    unfold inputsAmong
    rw [reads_listed, reads_listed]
    simp only [hpending.mem_iff]
    exact (e.perm_reads_of_sameEdges e' hsame key).filter _
  unfold inDegrees
  rw [Entries.find?_ofKeys, Entries.find?_ofKeys]
  simp only [hpending.mem_iff, hinputs.length_eq]

include hplaces

/-- The readers of a key are released in the same order. -/
theorem sortKeys_readers_congr (key : Text) :
    sortKeys (e.readers key) = sortKeys (e'.readers key) := by
  refine sortKeys_congr (e.perm_readers_of_sameEdges e' hsame key) (hplaces.subset ?_)
  exact fun _ hcell => mem_names_of_reads (e.mem_readers.mp hcell)

/-- Two runs with the same agenda take the same cells, because the
readers of each are put in order before they are released. -/
theorem settle_congr {agenda agenda' : Agenda} (hagenda : SameAgenda agenda agenda')
    (done : List Text) : e.settle agenda done = e'.settle agenda' done := by
  fun_induction settle e agenda done generalizing agenda' with
  | case1 degrees done =>
      obtain ⟨degrees', queue'⟩ := agenda'
      obtain rfl : [] = queue' := hagenda.queue
      rw [settle]
  | case2 degrees key queue done ih =>
      obtain ⟨degrees', queue'⟩ := agenda'
      obtain rfl : key :: queue = queue' := hagenda.queue
      have hrest : SameAgenda ⟨degrees, queue⟩ ⟨degrees', queue⟩ := ⟨rfl, hagenda.degrees⟩
      rw [settle, sortKeys_readers_congr e e' hsame hplaces key]
      exact bind_congr_ok fun readers _ => ih readers (hrest.foldl_release key readers)

/-- Cells of the graph are put in the same order of evaluation, whatever
list they are given in. -/
theorem evaluationOrder_congr {keys keys' : List Text} (hkeys : ∀ key, key ∈ keys ↔ key ∈ keys')
    (hnames : ∀ key ∈ keys, key ∈ graph.entries.names) :
    e.evaluationOrder keys = e'.evaluationOrder keys' := by
  have hpending := perm_members_of_mem_iff e e' hkeys
  have hdegrees := find?_inDegrees_congr e e' hsame hpending
  -- whatever is picked from the cells to be ordered is sorted alike
  have hsort : ∀ p : Text → Bool,
      sortKeys ((e.members keys).filter p) = sortKeys ((e'.members keys').filter p) := by
    intro p
    refine sortKeys_congr (hpending.filter p) (hplaces.subset fun key hkey => ?_)
    exact hnames key (e.mem_members.mp (List.mem_filter.mp hkey).1)
  have hagenda : ∀ queue, SameAgenda ⟨e.listed.inDegrees (e.members keys), queue⟩
      ⟨e'.listed.inDegrees (e'.members keys'), queue⟩ := fun _ => ⟨rfl, hdegrees⟩
  unfold evaluationOrder
  simp only [hdegrees, hsort]
  refine bind_congr_ok fun queue _ => ?_
  rw [settle_congr e e' hsame hplaces (hagenda queue)]

end

-- ====================================================== cycles

/-- The same cycle is found, if there is one. The search goes by sorted
keys throughout, and keys of different places are sorted in one way
only. -/
theorem cycle?_congr (e : Enumeration graph) (e' : Enumeration graph')
    (hsame : SameEdges graph graph') (hplaces : DistinctPlaces graph.entries.names)
    (hlegible : graph.Legible) : ∃ path, e.cycle? = .ok path ∧ e'.cycle? = .ok path := by
  have hplaced : ∀ key ∈ e.nodes, Placed key := fun key hkey =>
    hlegible.placed_of_mem_nodes (Text.mem_sortDistinct.mp (e.perm_nodes.mem_iff.mp hkey))
  have hnodes := e.perm_nodes_of_sameEdges e' hsame
  obtain ⟨starts, hstarts⟩ := sortKeys_ok hplaced
  obtain ⟨starts', hstarts'⟩ :=
    sortKeys_ok fun key hkey => hplaced key (hnodes.mem_iff.mpr hkey)
  have hperm : starts.Perm starts' :=
    (perm_of_sortKeys hstarts).trans (hnodes.trans (perm_of_sortKeys hstarts').symm)
  have hreads : ∀ cell, (e.listed.reads cell).Perm (e'.listed.reads cell) := by
    intro cell
    rw [reads_listed, reads_listed]
    exact e.perm_reads_of_sameEdges e' hsame cell
  -- only the starts that read something matter, and these have places of their own
  have hfilter : starts.filter (fun start => e.listed.reads start ≠ [])
      = starts'.filter fun start => e.listed.reads start ≠ [] := by
    refine InGridOrder.eq_of_perm ((inGridOrder_of_sortKeys hstarts).filter _)
      ((inGridOrder_of_sortKeys hstarts').filter _) (hperm.filter _) (hplaces.subset ?_)
    intro start hstart
    have hne : e.listed.reads start ≠ [] := by simpa using (List.mem_filter.mp hstart).2
    rw [reads_listed] at hne
    refine mem_names_of_reads_ne_nil fun hnil => hne ?_
    exact List.Perm.eq_nil (hnil ▸ e.perm_reads start)
  refine ⟨e.listed.cycleFrom [] starts, ?_, ?_⟩
  · unfold cycle?
    rw [hstarts]
    rfl
  · unfold cycle?
    rw [hstarts', cycleFrom_filter, hfilter, ← cycleFrom_filter, cycleFrom_congr hreads]
    rfl

end Enumeration

end Spreadsheet.Graph
