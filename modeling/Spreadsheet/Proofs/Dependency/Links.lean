/-
The links stand for a graph.

# The two directions

Reads are entered in two collections of sets, and every question to a graph
goes by one of them or by both. `Coherent` says that they are converse to
each other: a key is among the reads of a cell just when the cell is among
the readers of the key. It says too that each set has a member only once,
and that both ends of a read take part. Entering one read keeps all this
(`Coherent.addRead`), so it holds of the links of every store
(`coherent_ofStore`) and after any reads that are added to them.

# The graph

Links represent a graph when the cells read the same in both and the same
keys take part (`Represents`). A read that is added to both keeps that, and
so does a cell that is taken in with its formula, though a graph takes in
all its reads at once. So the links of a store represent the graph of the
store, and there are none just when there is no graph (`agree_ofStore`).

# What this closes

Links that represent a graph are one of its enumerations
(`Represents.enumerates`), and so are those of a store to which reads were
added (`exists_enumeration`). What is proved of a graph along every
enumeration therefore holds of the links: the search for dependents, the
search for a cycle and the order of evaluation go through these very sets.
-/
import Spreadsheet.Dependency.Links
import Spreadsheet.Proofs.Dependency.Enumeration

namespace Spreadsheet.Links

variable {links : Links} {graph : Graph} {cell key : Text}

-- ====================================================== sets under names

/-- A member that is entered under a name is a member there, and nothing
else changes. -/
theorem mem_members_enter {sets : Entries (List Text)} {name member k r : Text} :
    r ∈ members (enter sets name member) k ↔ r ∈ members sets k ∨ k = name ∧ r = member := by
  unfold members enter
  rw [Entries.find?_put]
  by_cases hk : k = name
  · rw [if_pos hk, hk, Option.getD_some, Graph.mem_withMember]
    simp [members]
  · rw [if_neg hk]
    simp [hk]

/-- Entering a member keeps the sets free of repetitions, the set that
it is entered into and all others. -/
theorem nodup_members_enter {sets : Entries (List Text)}
    (h : ∀ name, (members sets name).Nodup) (name member k : Text) :
    (members (enter sets name member) k).Nodup := by
  unfold members enter
  rw [Entries.find?_put]
  by_cases hk : k = name
  · rw [if_pos hk]
    exact Graph.nodup_withMember (h name) member
  · rw [if_neg hk]
    exact h k

-- ====================================================== converse directions

/-- Links whose collections fit each other. -/
structure Coherent (links : Links) : Prop where
  /-- What a cell reads is what has the cell among its readers. -/
  converse : ∀ cell key, key ∈ members links.reads cell ↔ cell ∈ members links.readers key
  /-- Both ends of a read take part. -/
  ends : ∀ cell key, key ∈ members links.reads cell → cell ∈ links.nodes ∧ key ∈ links.nodes
  distinct_reads : ∀ cell, (members links.reads cell).Nodup
  distinct_readers : ∀ key, (members links.readers key).Nodup
  distinct_nodes : links.nodes.Nodup

/-- Without reads there is nothing to fit. -/
theorem coherent_empty : empty.Coherent where
  converse _ _ := iff_of_false List.not_mem_nil List.not_mem_nil
  ends := nofun
  distinct_reads _ := List.nodup_nil
  distinct_readers _ := List.nodup_nil
  distinct_nodes := List.nodup_nil

/-- The nodes of links to which a read was added: those from before, and
both ends of the read. -/
theorem mem_nodes_addRead {k : Text} :
    k ∈ (links.addRead cell key).nodes ↔ k ∈ links.nodes ∨ k = cell ∨ k = key := by
  show k ∈ Graph.withMember (Graph.withMember links.nodes cell) key ↔ _
  rw [Graph.mem_withMember, Graph.mem_withMember, or_assoc]

namespace Coherent

/-- A key that takes part without being read changes nothing about the
reads. -/
theorem addNode (h : links.Coherent) (key : Text) : (links.addNode key).Coherent where
  converse := h.converse
  ends cell r hr := by
    obtain ⟨hcell, hkey⟩ := h.ends cell r hr
    exact ⟨Graph.mem_withMember.mpr (.inl hcell), Graph.mem_withMember.mpr (.inl hkey)⟩
  distinct_reads := h.distinct_reads
  distinct_readers := h.distinct_readers
  distinct_nodes := Graph.nodup_withMember h.distinct_nodes key

/-- A read is entered in both directions at once, so they stay
converse. -/
theorem addRead (h : links.Coherent) (cell key : Text) : (links.addRead cell key).Coherent where
  converse k r := by
    show r ∈ members (enter links.reads cell key) k ↔ k ∈ members (enter links.readers key cell) r
    rw [mem_members_enter, mem_members_enter, h.converse, and_comm]
  ends k r hr := by
    rw [mem_nodes_addRead, mem_nodes_addRead]
    rcases mem_members_enter.mp hr with hr | ⟨rfl, rfl⟩
    · obtain ⟨hk, hr⟩ := h.ends k r hr
      exact ⟨.inl hk, .inl hr⟩
    · exact ⟨.inr (.inl rfl), .inr (.inr rfl)⟩
  distinct_reads := nodup_members_enter h.distinct_reads cell key
  distinct_readers := nodup_members_enter h.distinct_readers key cell
  distinct_nodes := Graph.nodup_withMember (Graph.nodup_withMember h.distinct_nodes cell) key

/-- Reads that are entered one after another keep the directions
converse. -/
theorem addReads (h : links.Coherent) (cell : Text) (keys : List Text) :
    (links.addReads cell keys).Coherent := by
  induction keys generalizing links with
  | nil => exact h
  | cons key keys ih => exact ih (h.addRead cell key)

end Coherent

-- ====================================================== taking in a cell

/-- The links with the reads of a cell, if it holds a formula. -/
def withCell (links : Links) (key : Text) (cell : Cell) : Except Fault Links :=
  if cell.hasFormula then do
    let keys ← cell.reads
    return (links.addNode key).addReads key keys
  else return links

/-- Links are built by taking in the cells of a store one after
another. -/
theorem ofStore_eq_foldlM (store : Store) :
    ofStore store
      = store.entries.foldlM (fun links entry => links.withCell entry.1 entry.2) empty := by
  unfold ofStore
  congr 1
  funext links entry
  obtain ⟨key, cell⟩ := entry
  unfold withCell Cell.hasFormula Cell.reads
  cases hformula : cell.formula with
  | none => simp [hformula]
  | some formula => cases hvoid : formula.isVoid <;> simp [hformula, hvoid]

/-- Taking in a cell keeps the directions converse, for every read of
its formula is entered in both. -/
theorem Coherent.withCell {links' : Links} {c : Cell} (h : links.Coherent)
    (hcell : links.withCell key c = .ok links') : links'.Coherent := by
  unfold Links.withCell at hcell
  split at hcell
  · obtain ⟨keys, -, hcell⟩ := bind_eq_ok.mp hcell
    cases hcell
    exact (h.addNode key).addReads key keys
  · cases hcell
    exact h

/-- The links of a store are coherent. -/
theorem coherent_ofStore {store : Store} (h : ofStore store = .ok links) : links.Coherent := by
  rw [ofStore_eq_foldlM] at h
  exact foldlM_keeps (fun _ _ _ hstep hbefore => hbefore.withCell hstep) h coherent_empty

-- ====================================================== the graph

/-- Links that stand for a graph. -/
structure Represents (links : Links) (graph : Graph) : Prop where
  coherent : links.Coherent
  reads : ∀ cell key, key ∈ members links.reads cell ↔ graph.Reads cell key
  nodes : ∀ key, key ∈ links.nodes ↔ key ∈ graph.nodes

theorem represents_empty : empty.Represents .empty where
  coherent := coherent_empty
  reads _ _ := iff_of_false List.not_mem_nil List.not_mem_nil
  nodes _ := iff_of_false List.not_mem_nil List.not_mem_nil

namespace Represents

/-- Who reads a key is kept as the graph finds it. -/
theorem readers (h : links.Represents graph) (cell key : Text) :
    cell ∈ members links.readers key ↔ graph.Reads cell key := by
  rw [← h.coherent.converse, h.reads]

/-- A read that is added to the links and to the graph keeps the one
standing for the other. -/
theorem addRead (h : links.Represents graph) (cell key : Text) :
    (links.addRead cell key).Represents (graph.addRead cell key) where
  coherent := h.coherent.addRead cell key
  reads k r := by
    show r ∈ members (enter links.reads cell key) k ↔ _
    rw [mem_members_enter, Graph.reads_addRead, h.reads]
  nodes k := by
    simp only [mem_nodes_addRead, h.nodes, Graph.mem_nodes, Graph.mem_names_addRead,
      Graph.reads_addRead, exists_or, exists_eq_left]
    tauto

/-- Reads that are added one after another keep the one standing for the
other. -/
theorem addAll (h : links.Represents graph) (reads : List (Text × Text)) :
    Represents (reads.foldl (fun links read => links.addRead read.1 read.2) links)
      (reads.foldl (fun graph read => graph.addRead read.1 read.2) graph) := by
  induction reads generalizing links graph with
  | nil => exact h
  | cons read reads ih => exact ih (h.addRead read.1 read.2)

end Represents

-- ====================================================== the graph of a store

theorem mem_members_addReads {keys : List Text} {k r : Text} :
    r ∈ members (links.addReads cell keys).reads k ↔
      r ∈ members links.reads k ∨ k = cell ∧ r ∈ keys := by
  induction keys generalizing links with
  | nil => simp [addReads]
  | cons key keys ih =>
      show r ∈ members ((links.addRead cell key).addReads cell keys).reads k ↔ _
      rw [ih]
      show r ∈ members (enter links.reads cell key) k ∨ _ ↔ _
      rw [mem_members_enter, List.mem_cons]
      tauto

theorem mem_nodes_addReads {keys : List Text} {k : Text} (hcell : cell ∈ links.nodes) :
    k ∈ (links.addReads cell keys).nodes ↔ k ∈ links.nodes ∨ k ∈ keys := by
  induction keys generalizing links with
  | nil => simp [addReads]
  | cons key keys ih =>
      show k ∈ ((links.addRead cell key).addReads cell keys).nodes ↔ _
      rw [ih (mem_nodes_addRead.mpr (.inl hcell)), mem_nodes_addRead, List.mem_cons]
      constructor
      · rintro ((hk | rfl | hk) | hk)
        · exact .inl hk
        · exact .inl hcell
        · exact .inr (.inl hk)
        · exact .inr (.inr hk)
      · rintro (hk | hk | hk)
        · exact .inl (.inl hk)
        · exact .inl (.inr (.inr hk))
        · exact .inr hk

/-- A cell that is new to the graph may be taken in with all its reads
at once, or one by one. -/
theorem Represents.putReads (h : links.Represents graph) (hnew : cell ∉ graph.entries.names)
    (keys : List Text) :
    ((links.addNode cell).addReads cell keys).Represents
      (graph.putReads cell (Text.sortDistinct keys) (Text.nodup_sortDistinct keys)) := by
  have hnone : ∀ r, ¬graph.Reads cell r := fun r hr => hnew (Graph.mem_names_of_reads hr)
  have hreads : ∀ k r, Graph.Reads
      (graph.putReads cell (Text.sortDistinct keys) (Text.nodup_sortDistinct keys)) k r ↔
        graph.Reads k r ∨ k = cell ∧ r ∈ keys := by
    intro k r
    unfold Graph.Reads
    rw [Graph.reads_putReads]
    by_cases hk : k = cell
    · rw [if_pos hk, Text.mem_sortDistinct, hk]
      exact ⟨fun hr => .inr ⟨rfl, hr⟩, fun hr => (hr.resolve_left (hnone r)).2⟩
    · rw [if_neg hk]
      simp [hk]
  refine ⟨(h.coherent.addNode cell).addReads cell keys, fun k r => ?_, fun k => ?_⟩
  · rw [mem_members_addReads, hreads]
    exact or_congr_left (h.reads k r)
  · have hcell : cell ∈ (links.addNode cell).nodes := Graph.mem_withMember.mpr (.inr rfl)
    have hnodes : k ∈ (links.addNode cell).nodes ↔ k ∈ graph.nodes ∨ k = cell := by
      show k ∈ Graph.withMember links.nodes cell ↔ _
      rw [Graph.mem_withMember, h.nodes]
    have hnames : k ∈ (graph.putReads cell _ (Text.nodup_sortDistinct keys)).entries.names ↔ _ :=
      Entries.mem_names_put
    rw [mem_nodes_addReads hcell, hnodes, Graph.mem_nodes, Graph.mem_nodes, hnames]
    simp only [hreads, exists_or, exists_eq_left]
    tauto

/-- What is built in two ways comes out of both, the one standing for
the other, or of neither, for the same reason. -/
inductive Agree : Except Fault Links → Except Fault Graph → Prop
  | built {links : Links} {graph : Graph} (represents : links.Represents graph) :
      Agree (.ok links) (.ok graph)
  | refused (fault : Fault) : Agree (.error fault) (.error fault)

/-- Cells that are new to the graph are taken in alike, and where one
side fails the other fails with the same fault. The induction is on the
cells, and each one taken in stands for one entry of the graph. -/
theorem agree_foldlM {entries : Entries Cell} (hdistinct : entries.names.Nodup)
    (hnew : ∀ key ∈ entries.names, key ∉ graph.entries.names) (h : links.Represents graph) :
    Agree (entries.foldlM (fun links entry => links.withCell entry.1 entry.2) links)
      (entries.foldlM (fun graph entry => graph.withCell entry.1 entry.2) graph) := by
  induction entries generalizing links graph with
  | nil => exact .built h
  | cons entry entries ih =>
      obtain ⟨name, cell⟩ := entry
      obtain ⟨hname, hdistinct⟩ := List.nodup_cons.mp hdistinct
      have hfresh : name ∉ graph.entries.names := hnew name (List.mem_cons_self ..)
      have hrest : ∀ key ∈ Entries.names entries, key ≠ name ∧ key ∉ graph.entries.names := by
        intro key hkey
        exact ⟨fun heq => hname (heq ▸ hkey), hnew key (List.mem_cons_of_mem _ hkey)⟩
      rw [List.foldlM_cons, List.foldlM_cons]
      unfold withCell Graph.withCell
      by_cases hformula : cell.hasFormula = true
      · rw [if_pos hformula, if_pos hformula]
        cases hreads : cell.reads with
        | error fault => exact .refused fault
        | ok keys =>
            refine ih hdistinct (fun key hkey hmem => ?_) (h.putReads hfresh keys)
            obtain ⟨hne, hold⟩ := hrest key hkey
            rcases Entries.mem_names_put.mp hmem with heq | hmem
            · exact hne heq
            · exact hold hmem
      · rw [if_neg hformula, if_neg hformula]
        exact ih hdistinct (fun key hkey => (hrest key hkey).2) h

/-- The links of a store stand for the graph of the store, and there are
none just when there is no graph. -/
theorem agree_ofStore (store : Store) : Agree (ofStore store) (Graph.ofStore store) := by
  rw [ofStore_eq_foldlM, Graph.ofStore_eq_foldlM]
  exact agree_foldlM store.distinct (fun key _ => Graph.not_mem_empty key) represents_empty

-- ====================================================== questions

/-- The nodes that are kept are those of the graph. -/
theorem Represents.perm_nodes (h : links.Represents graph) :
    links.nodes.Perm (Text.sortDistinct graph.nodes) := by
  refine (List.perm_ext_iff_of_nodup h.coherent.distinct_nodes
    (Text.nodup_sortDistinct _)).mpr fun key => ?_
  rw [h.nodes, Text.mem_sortDistinct]

/-- What is kept for a cell is what it reads in the graph. -/
theorem Represents.perm_reads (h : links.Represents graph) (cell : Text) :
    (members links.reads cell).Perm (graph.reads cell) :=
  (List.perm_ext_iff_of_nodup (h.coherent.distinct_reads cell)
    (graph.nodup_reads cell)).mpr (h.reads cell)

/-- Who is kept as a reader of a key reads it in the graph. -/
theorem Represents.perm_readers (h : links.Represents graph) (key : Text) :
    (members links.readers key).Perm (graph.readers key) := by
  refine (List.perm_ext_iff_of_nodup (h.coherent.distinct_readers key)
    (graph.nodup_readers key)).mpr fun cell => ?_
  rw [h.readers, Graph.mem_readers]

/-- Links that stand for a graph are one of the orders in which its sets
are gone through. -/
theorem Represents.enumerates (h : links.Represents graph) :
    ∃ e : Graph.Enumeration graph,
      e.nodes = links.nodes ∧ e.reads = members links.reads ∧ e.readers = members links.readers := by
  let e : Graph.Enumeration graph :=
    ⟨links.nodes, members links.reads, members links.readers, Graph.firsts,
      h.perm_nodes, h.perm_reads, h.perm_readers, fun _ => List.Perm.refl _⟩
  exact ⟨e, rfl, rfl, rfl⟩

/-- Links of a store to which reads were added keep their two directions
converse, and are an enumeration of the graph of the store to which the
same reads were added. -/
theorem exists_enumeration {store : Store} (h : ofStore store = .ok links)
    (reads : List (Text × Text)) :
    let later := reads.foldl (fun links read => links.addRead read.1 read.2) links
    later.Coherent ∧ ∃ graph, Graph.ofStore store = .ok graph ∧
      ∃ e : Graph.Enumeration
          (reads.foldl (fun graph read => graph.addRead read.1 read.2) graph),
        e.nodes = later.nodes ∧ e.reads = members later.reads ∧
          e.readers = members later.readers := by
  intro later
  have hagree := agree_ofStore store
  rw [h] at hagree
  cases hgraph : Graph.ofStore store with
  | error fault =>
      rw [hgraph] at hagree
      cases hagree
  | ok graph =>
      rw [hgraph] at hagree
      cases hagree with
      | built hrepresents =>
          have hlater := hrepresents.addAll reads
          exact ⟨hlater.coherent, graph, rfl, hlater.enumerates⟩

end Spreadsheet.Links
