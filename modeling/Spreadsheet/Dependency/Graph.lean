/-
Which cells read which.

# One relation

The graph keeps, for every cell with a formula, the keys that it reads. Who
reads a key is found from the same entries, and so are the keys that take
part; the two directions cannot disagree. A program keeps both directions,
so that it need not search for one of them. `Links` is that form, and it is
proved to stand for a graph.

# The entries

A cell stands once, and so does every key that it reads; a graph carries the
proofs of both. A cell with a formula has an entry even if the formula reads
nothing, because it takes part in an order of evaluation all the same.

# Searches

A search through a graph meets cells one after another. What ends it is the
number of cells with an entry that were not met yet, which every new cell
makes smaller (`length_unmet_lt`).
-/
import Spreadsheet.Formula.Reads
import Spreadsheet.Store
import Spreadsheet.Text.Order

namespace Spreadsheet

/-- The keys that each cell reads; every cell stands once, and so does
every key it reads. -/
structure Graph where
  entries : Entries (List Text)
  distinct : entries.names.Nodup
  distinct_reads : ∀ entry ∈ entries, entry.2.Nodup

namespace Graph

/-- The graph without cells. -/
def empty : Graph :=
  ⟨[], List.nodup_nil, by simp⟩

instance : Inhabited Graph := ⟨empty⟩

/-- The keys that a cell reads. -/
def reads (graph : Graph) (cell : Text) : List Text :=
  (graph.entries.find? cell).getD []

/-- The cells that read a key. -/
def readers (graph : Graph) (key : Text) : List Text :=
  (graph.entries.filter fun entry => entry.2.contains key).map (·.1)

/-- The cells of the graph and the keys they read; a key may stand more
than once. -/
def nodes (graph : Graph) : List Text :=
  graph.entries.flatMap fun entry => entry.1 :: entry.2

/-- A cell that reads something has an entry. -/
theorem mem_names_of_reads_ne_nil {graph : Graph} {key : Text} (h : graph.reads key ≠ []) :
    key ∈ graph.entries.names := by
  rw [Entries.mem_names_iff]
  unfold reads at h
  cases hfind : graph.entries.find? key with
  | none =>
      rw [hfind] at h
      exact absurd rfl h
  | some keys => exact ⟨keys, rfl⟩

/-- Who reads a key has an entry. -/
theorem mem_names_of_mem_readers {graph : Graph} {cell key : Text} (h : cell ∈ graph.readers key) :
    cell ∈ graph.entries.names :=
  (List.filter_sublist.map _).subset h

-- ====================================================== searching a graph

/-- The cells with an entry that a search has not met. -/
def unmet (graph : Graph) (met : List Text) : List Text :=
  graph.entries.names.filter (· ∉ met)

theorem unmet_congr (graph : Graph) {met met' : List Text} (h : ∀ key, key ∈ met ↔ key ∈ met') :
    graph.unmet met = graph.unmet met' := by
  unfold unmet
  simp only [h]

/-- Meeting a cell that has an entry leaves less to meet. -/
theorem length_unmet_lt {graph : Graph} {met met' : List Text} {key : Text}
    (hsub : met ⊆ met') (hkey : key ∈ graph.entries.names) (hnew : key ∉ met)
    (hmet : key ∈ met') : (graph.unmet met').length < (graph.unmet met).length := by
  have hsplit : graph.unmet met' = (graph.unmet met).filter (· ∉ met') := by
    unfold unmet
    rw [List.filter_filter]
    refine List.filter_congr fun k _ => ?_
    rw [← Bool.decide_and, decide_eq_decide]
    exact ⟨fun h => ⟨h, fun hk => h (hsub hk)⟩, And.left⟩
  rw [hsplit]
  refine List.length_filter_lt_length_iff_exists.mpr ⟨key, ?_, by simpa using hmet⟩
  exact List.mem_filter.mpr ⟨hkey, decide_eq_true hnew⟩

-- ====================================================== building a graph

theorem nodup_reads (graph : Graph) (cell : Text) : (graph.reads cell).Nodup := by
  unfold reads Entries.find?
  cases h : List.lookup cell graph.entries with
  | none => exact List.nodup_nil
  | some keys =>
    have : (cell, keys) ∈ graph.entries := by
      obtain ⟨l₁, l₂, hl, _⟩ := List.lookup_eq_some_iff.mp h
      simp [hl]
    exact graph.distinct_reads _ this

/-- A list with one more member, at the end if it is new. -/
def withMember (keys : List Text) (key : Text) : List Text :=
  if key ∈ keys then keys else keys ++ [key]

theorem nodup_withMember {keys : List Text} (h : keys.Nodup) (key : Text) :
    (withMember keys key).Nodup := by
  unfold withMember
  split
  · exact h
  · rename_i hkey
    exact List.nodup_append.mpr
      ⟨h, by simp, fun a ha b hb => by
        rintro rfl
        exact hkey (by simpa using (List.mem_singleton.mp hb) ▸ ha)⟩

/-- The graph with the keys that a cell reads. -/
def putReads (graph : Graph) (cell : Text) (keys : List Text) (h : keys.Nodup) : Graph where
  entries := graph.entries.put cell keys
  distinct := Entries.nodup_names_put graph.distinct cell keys
  distinct_reads entry hentry := by
    rcases Entries.mem_put hentry with rfl | hentry
    · exact h
    · exact graph.distinct_reads entry hentry

/-- The graph in which a cell also reads a key. -/
def addRead (graph : Graph) (cell key : Text) : Graph :=
  graph.putReads cell (withMember (graph.reads cell) key)
    (nodup_withMember (graph.nodup_reads cell) key)

/-- The graph of the formulas of a store. -/
def ofStore (store : Store) : Except Fault Graph :=
  store.entries.foldlM
    (fun graph (key, cell) =>
      match cell.formula with
      | none => return graph
      | some formula =>
        if formula.isVoid then return graph
        else do
          let keys ← Formula.reads formula
          return graph.putReads key (Text.sortDistinct keys) (Text.nodup_sortDistinct keys))
    empty

end Graph

end Spreadsheet
