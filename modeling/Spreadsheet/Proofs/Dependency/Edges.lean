/-
The edges of a dependency graph.

# Reads and readers

A graph keeps what each cell reads. The readers of a key are the cells that
read it (`mem_readers`), and the nodes are the cells and what they read
(`mem_nodes`). In a graph to which a read was added a cell reads what it
read before and what was added (`reads_addRead`).

# Graphs of stores

In a graph that is built from a store a cell reads the keys of its formula
and nothing else (`holds_of_ofStore`), and the cells of the graph are those
with a formula (`mem_names_ofStore`). The proof takes in the cells one after
another: a cell that was taken in is held (`Holds`), and later ones leave
its entry as it is (`SameAt`), for no two cells have one key.

# Displays

The graph knows nothing of displays. What a cell reads is a matter of its
formula, so two stores with the same input have the same graph
(`ofStore_congr`), and computing displays never changes an order of
evaluation.
-/
import Spreadsheet.Dependency.Graph
import Spreadsheet.Proofs.Outcome
import Spreadsheet.Proofs.Store.Input

namespace Spreadsheet

/-- The keys that a cell reads by its formula. -/
def Cell.reads (cell : Cell) : Except Fault (List Text) :=
  match cell.formula with
  | none => .ok []
  | some formula => Formula.reads formula

/-- A cell without a formula reads nothing. A formula that is an empty
text counts as none. -/
theorem Cell.reads_eq_nil {cell : Cell} (h : ¬cell.hasFormula = true) : cell.reads = .ok [] := by
  unfold Cell.hasFormula at h
  unfold Cell.reads
  split
  · rfl
  · next formula hformula =>
    rw [hformula] at h
    have hvoid : formula.isVoid = true := by simpa using h
    cases formula with
    | text s =>
        obtain rfl : s = [] := List.isEmpty_iff.mp hvoid
        rfl
    | other json => exact if_pos hvoid

namespace Graph

variable {graph : Graph} {cell key : Text}

-- ====================================================== edges

/-- A cell reads a key. -/
def Reads (graph : Graph) (cell key : Text) : Prop := key ∈ graph.reads cell

theorem mem_entries_iff {keys : List Text} :
    (cell, keys) ∈ graph.entries ↔ graph.entries.find? cell = some keys :=
  Entries.mem_iff_find? graph.distinct

theorem mem_names_of_reads (h : graph.Reads cell key) : cell ∈ graph.entries.names :=
  mem_names_of_reads_ne_nil (List.ne_nil_of_mem h)

/-- The readers of a key are the cells that read it: the one direction
of the graph is computed from the other. -/
theorem mem_readers : cell ∈ graph.readers key ↔ graph.Reads cell key := by
  unfold readers Reads reads
  constructor
  · intro h
    obtain ⟨⟨name, keys⟩, hentry, rfl⟩ := List.mem_map.mp h
    obtain ⟨hentry, hkey⟩ := List.mem_filter.mp hentry
    rw [mem_entries_iff.mp hentry]
    simpa using hkey
  · intro h
    cases hfind : graph.entries.find? cell with
    | none =>
        rw [hfind] at h
        cases h
    | some keys =>
        rw [hfind] at h
        have hentry := mem_entries_iff.mpr hfind
        refine List.mem_map.mpr ⟨(cell, keys), List.mem_filter.mpr ⟨hentry, ?_⟩, rfl⟩
        simpa using h

theorem nodup_readers (graph : Graph) (key : Text) : (graph.readers key).Nodup :=
  graph.distinct.sublist (List.filter_sublist.map _)

/-- New reads for a cell change what that cell reads and nothing
else. -/
theorem reads_putReads (graph : Graph) (cell : Text) (keys : List Text) (h : keys.Nodup)
    (k : Text) :
    (graph.putReads cell keys h).reads k = if k = cell then keys else graph.reads k := by
  show ((graph.entries.put cell keys).find? k).getD [] = _
  rw [Entries.find?_put]
  by_cases hk : k = cell
  · rw [if_pos hk, if_pos hk]
    rfl
  · rw [if_neg hk, if_neg hk]
    rfl

/-- The cells of a graph and the keys they read are its nodes, whether
those keys are filled or not. -/
theorem mem_nodes :
    key ∈ graph.nodes ↔ key ∈ graph.entries.names ∨ ∃ cell, graph.Reads cell key := by
  unfold nodes
  rw [List.mem_flatMap]
  constructor
  · rintro ⟨⟨cell, keys⟩, hentry, hkey⟩
    have hfind := mem_entries_iff.mp hentry
    rcases List.mem_cons.mp hkey with rfl | hkey
    · exact .inl (Entries.mem_names_iff.mpr ⟨keys, hfind⟩)
    · refine .inr ⟨cell, ?_⟩
      unfold Reads reads
      rw [hfind]
      exact hkey
  · rintro (hkey | ⟨cell, hreads⟩)
    · obtain ⟨keys, hfind⟩ := Entries.mem_names_iff.mp hkey
      exact ⟨(key, keys), mem_entries_iff.mpr hfind, List.mem_cons_self ..⟩
    · obtain ⟨keys, hfind⟩ := Entries.mem_names_iff.mp (mem_names_of_reads hreads)
      unfold Reads reads at hreads
      rw [hfind] at hreads
      exact ⟨(cell, keys), mem_entries_iff.mpr hfind, List.mem_cons_of_mem _ hreads⟩

-- ====================================================== reads added

/-- A member that is entered is in, and so are those that were there.
Entering one twice changes nothing. -/
theorem mem_withMember {keys : List Text} {k : Text} :
    k ∈ withMember keys key ↔ k ∈ keys ∨ k = key := by
  unfold withMember
  split
  · next hkey =>
    constructor
    · exact .inl
    · rintro (hk | rfl)
      · exact hk
      · exact hkey
  · rw [List.mem_append, List.mem_singleton]

/-- Adding a read adds that one and no other. -/
theorem reads_addRead {k r : Text} :
    (graph.addRead cell key).Reads k r ↔ graph.Reads k r ∨ k = cell ∧ r = key := by
  unfold addRead Reads
  rw [reads_putReads]
  by_cases hk : k = cell
  · rw [if_pos hk, mem_withMember, hk]
    simp
  · rw [if_neg hk]
    simp [hk]

theorem mem_names_addRead {k : Text} :
    k ∈ (graph.addRead cell key).entries.names ↔ k = cell ∨ k ∈ graph.entries.names :=
  Entries.mem_names_put

-- ====================================================== formulas

/-- The graph with the keys that a cell reads, if it holds a formula. -/
def withCell (graph : Graph) (key : Text) (cell : Cell) : Except Fault Graph :=
  if cell.hasFormula then do
    let keys ← cell.reads
    return graph.putReads key (Text.sortDistinct keys) (Text.nodup_sortDistinct keys)
  else return graph

/-- A graph has a cell the way its formula reads. -/
structure Holds (graph : Graph) (key : Text) (cell : Cell) : Prop where
  reads : ∃ keys, cell.reads = .ok keys ∧ graph.reads key = Text.sortDistinct keys
  mem_names : key ∈ graph.entries.names ↔ cell.hasFormula = true

/-- Two graphs have the same entry, or none, under a key. -/
def SameAt (graph graph' : Graph) (key : Text) : Prop :=
  graph.entries.find? key = graph'.entries.find? key

theorem SameAt.reads {graph' : Graph} (h : SameAt graph graph' key) :
    graph.reads key = graph'.reads key :=
  congrArg (Option.getD · []) h

theorem SameAt.mem_names {graph' : Graph} (h : SameAt graph graph' key) :
    key ∈ graph.entries.names ↔ key ∈ graph'.entries.names := by
  rw [Entries.mem_names_iff, Entries.mem_names_iff, show _ = _ from h]

/-- A cell is held by every graph that has the same entry for it. -/
theorem Holds.of_sameAt {graph' : Graph} {c : Cell} (h : SameAt graph graph' key)
    (hholds : graph'.Holds key c) : graph.Holds key c := by
  refine ⟨?_, h.mem_names.trans hholds.mem_names⟩
  rw [h.reads]
  exact hholds.reads

/-- A cell that a graph took in is held by it, and the entries of all
others are as before. -/
theorem withCell_eq_ok {graph' : Graph} {c : Cell} (h : graph.withCell key c = .ok graph')
    (hkey : key ∉ graph.entries.names) :
    graph'.Holds key c ∧ ∀ k, k ≠ key → SameAt graph' graph k := by
  unfold withCell at h
  split at h
  · next hformula =>
    obtain ⟨keys, hkeys, h⟩ := bind_eq_ok.mp h
    cases h
    refine ⟨⟨⟨keys, hkeys, ?_⟩, ?_⟩, fun k hk => ?_⟩
    · rw [reads_putReads, if_pos rfl]
    · exact ⟨fun _ => hformula, fun _ => Entries.mem_names_put.mpr (.inl rfl)⟩
    · show (graph.entries.put key _).find? k = _
      rw [Entries.find?_put, if_neg hk]
  · next hformula =>
    cases h
    refine ⟨⟨⟨[], Cell.reads_eq_nil hformula, ?_⟩, ?_⟩, fun k hk => rfl⟩
    · unfold Graph.reads
      rw [Entries.find?_eq_none.mpr hkey]
      simp [Text.sortDistinct, Text.dropRepeats]
    · exact ⟨fun hmem => absurd hmem hkey, fun hf => absurd hf hformula⟩

theorem not_mem_empty (key : Text) : key ∉ (empty : Graph).entries.names :=
  List.not_mem_nil

/-- A graph is built by taking in the cells of a store one after
another. -/
theorem ofStore_eq_foldlM (store : Store) :
    ofStore store
      = store.entries.foldlM (fun graph entry => graph.withCell entry.1 entry.2) empty := by
  unfold ofStore
  congr 1
  funext graph entry
  obtain ⟨key, cell⟩ := entry
  unfold withCell Cell.hasFormula Cell.reads
  cases hformula : cell.formula with
  | none => simp [hformula]
  | some formula => cases hvoid : formula.isVoid <;> simp [hformula, hvoid]

/-- After the cells of some entries were taken in, they are held, and
what was there under other keys is there still. -/
theorem foldlM_withCell {entries : Entries Cell} (hdistinct : entries.names.Nodup)
    {graph graph' : Graph} (hnew : ∀ key ∈ entries.names, key ∉ graph.entries.names)
    (h : entries.foldlM (fun graph entry => graph.withCell entry.1 entry.2) graph = .ok graph') :
    (∀ key cell, entries.find? key = some cell → graph'.Holds key cell) ∧
      ∀ key ∉ entries.names, SameAt graph' graph key := by
  induction entries generalizing graph with
  | nil =>
      cases h
      exact ⟨nofun, fun _ _ => rfl⟩
  | cons e rest ih =>
      obtain ⟨name, c⟩ := e
      obtain ⟨hname, hrest⟩ := List.nodup_cons.mp hdistinct
      rw [List.foldlM_cons] at h
      obtain ⟨mid, hmid, h⟩ := bind_eq_ok.mp h
      have hfresh : name ∉ graph.entries.names := hnew name (List.mem_cons_self ..)
      obtain ⟨hholds, hothers⟩ := withCell_eq_ok hmid hfresh
      have hnewMid : ∀ key ∈ Entries.names rest, key ∉ mid.entries.names := by
        intro key hkey
        have hne : key ≠ name := fun heq => hname (heq ▸ hkey)
        rw [(hothers key hne).mem_names]
        exact hnew key (List.mem_cons_of_mem _ hkey)
      obtain ⟨hheld, hkept⟩ := ih hrest hnewMid h
      refine ⟨fun key cell hcell => ?_, fun key hkey => ?_⟩
      · rw [Entries.find?_cons] at hcell
        split at hcell
        · next heq =>
          subst heq
          cases hcell
          exact hholds.of_sameAt (hkept key hname)
        · exact hheld key cell hcell
      · obtain ⟨hne, hkey⟩ := not_or.mp (fun hmem => hkey (List.mem_cons.mpr hmem))
        exact (hkept key hkey).trans (hothers key hne)

/-- The graph of a store holds every cell of it. -/
theorem holds_of_ofStore {store : Store} (h : ofStore store = .ok graph) {cell : Cell}
    (hcell : store.find? key = some cell) : graph.Holds key cell := by
  rw [ofStore_eq_foldlM] at h
  exact (foldlM_withCell store.distinct (fun key _ => not_mem_empty key) h).1 key cell hcell

/-- A cell reads the keys that its formula names, each of them once
however often it names them. -/
theorem Holds.reads_iff {c : Cell} (h : graph.Holds key c) :
    ∃ keys, c.reads = .ok keys ∧ ∀ r, graph.Reads key r ↔ r ∈ keys := by
  obtain ⟨keys, hkeys, hreads⟩ := h.reads
  refine ⟨keys, hkeys, fun r => ?_⟩
  rw [Reads, hreads, Text.mem_sortDistinct]

theorem reads_iff_of_find? {store : Store} (h : ofStore store = .ok graph) {cell : Cell}
    (hcell : store.find? key = some cell) {keys : List Text} (hkeys : cell.reads = .ok keys)
    {r : Text} : graph.Reads key r ↔ r ∈ keys := by
  obtain ⟨keys', hkeys', hreads⟩ := (holds_of_ofStore h hcell).reads_iff
  rw [hkeys] at hkeys'
  cases hkeys'
  exact hreads r

/-- The cells of the graph of a store are those with a formula, also if
that formula reads nothing. -/
theorem mem_names_ofStore {store : Store} (h : ofStore store = .ok graph) :
    key ∈ graph.entries.names ↔ store.hasFormula key = true := by
  rw [Store.hasFormula_iff]
  cases hcell : store.find? key with
  | some cell => simp [(holds_of_ofStore h hcell).mem_names]
  | none =>
      rw [ofStore_eq_foldlM] at h
      have hsame := (foldlM_withCell store.distinct (fun key _ => not_mem_empty key) h).2 key
        (Entries.find?_eq_none.mp hcell)
      rw [hsame.mem_names]
      constructor
      · intro hmem
        exact absurd hmem (not_mem_empty key)
      · rintro ⟨cell, hsome, -⟩
        cases hsome

/-- Where the store has no cell, nothing is read. -/
theorem reads_of_find?_eq_none {store : Store} (h : ofStore store = .ok graph)
    (hcell : store.find? key = none) : graph.reads key = [] := by
  have hmem : key ∉ graph.entries.names := by
    rw [mem_names_ofStore h, Store.hasFormula_iff, hcell]
    rintro ⟨cell, hsome, -⟩
    cases hsome
  unfold Graph.reads
  rw [Entries.find?_eq_none.mpr hmem]
  rfl

/-- Where two stores have cells with the same formula, or none, the
cells read the same. -/
theorem reads_eq_of_input? {s t : Store} {graph' : Graph} (hs : ofStore s = .ok graph)
    (ht : ofStore t = .ok graph') (h : s.input? key = t.input? key) :
    graph.reads key = graph'.reads key := by
  cases hcell : s.find? key with
  | some cell =>
      obtain ⟨cell', hcell', hinput⟩ := Store.find?_of_input? h hcell
      obtain ⟨keys, hkeys, hreads⟩ := (holds_of_ofStore hs hcell).reads
      obtain ⟨keys', hkeys', hreads'⟩ := (holds_of_ofStore ht hcell').reads
      unfold Cell.reads at hkeys hkeys'
      rw [Cell.formula_eq_of_input hinput, hkeys'] at hkeys
      cases hkeys
      rw [hreads, hreads']
  | none =>
      have hcell' : t.find? key = none := by
        unfold Store.input? at h
        rw [hcell] at h
        exact Option.map_eq_none_iff.mp h.symm
      rw [reads_of_find?_eq_none hs hcell, reads_of_find?_eq_none ht hcell']

/-- A cell reads what the formula that was put there names. So the graph
of a store is decided by its input, and no display takes part in it. -/
theorem reads_iff_input? {store : Store} (h : ofStore store = .ok graph) {r : Text} :
    graph.Reads key r ↔
      ∃ cell keys, store.input? key = some cell ∧ cell.reads = .ok keys ∧ r ∈ keys := by
  have hsame : ∀ cell : Cell, cell.input.reads = cell.reads := by
    intro cell
    unfold Cell.reads
    rw [Cell.formula_input]
  unfold Store.input?
  cases hcell : store.find? key with
  | none =>
      rw [Reads, reads_of_find?_eq_none h hcell]
      simp
  | some cell =>
      obtain ⟨keys, hkeys, hreads⟩ := (holds_of_ofStore h hcell).reads_iff
      rw [hreads]
      constructor
      · intro hr
        exact ⟨cell.input, keys, rfl, (hsame cell).trans hkeys, hr⟩
      · rintro ⟨_, keys', hinput, hkeys', hr⟩
        cases hinput
        rw [hsame, hkeys] at hkeys'
        cases hkeys'
        exact hr

theorem withCell_input (graph : Graph) (key : Text) (cell : Cell) :
    graph.withCell key cell.input = graph.withCell key cell := by
  unfold withCell Cell.reads
  rw [Cell.hasFormula_input, Cell.formula_input]

/-- Stores with the same input have the same graph, and where one has
none the other fails with the same fault. -/
theorem ofStore_congr {s t : Store} (h : s.inputs = t.inputs) : ofStore s = ofStore t := by
  have hinputs : ∀ store : Store, ofStore store
      = store.inputs.foldlM (fun graph entry => graph.withCell entry.1 entry.2) empty := by
    intro store
    rw [ofStore_eq_foldlM, Store.inputs, List.foldlM_map]
    simp only [withCell_input]
  rw [hinputs, hinputs, h]

end Graph

end Spreadsheet
