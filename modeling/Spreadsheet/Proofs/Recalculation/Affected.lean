/-
What an edit affects.

# Reads by the formulas

The cells to evaluate after an edit are found in the graph, from the edited
key against the direction of the reads. By the formulas of the store they
are the cells whose reads lead to the edited key, in one step or through
other formulas, and the edited cell itself if it holds a formula
(`mem_affected_iff`). This mentions no graph: what a cell reads is what its
formula names (`Store.Reads`).

# A refresh

All affected cells hold formulas, so a refresh finds a cell under each of
them; it changes some of them, in their order (`keys_refresh_sublist`). On a
sheet whose keys can all be placed nothing in this can fail, and a graph
that was built before gives what a new one gives (`affected_refreshed`).

# Any order of sets

The affected cells are the same along every enumeration of the graph, and
only where two of them do not depend on each other may they come in another
order. What is stated of the cells and of the changes is therefore stated
along every enumeration too (`Refreshed`).
-/
import Spreadsheet.Proofs.Recalculation.Success

namespace Spreadsheet.Store

open Relation (TransGen)

variable {settings : Settings} {store : Store} {graph : Graph} {edited : Text} {order : List Text}
  {changes : Changes}

-- ====================================================== reads by the formulas

/-- The formula of a cell names a key. -/
def Reads (store : Store) (cell key : Text) : Prop :=
  ∃ c keys, store.find? cell = some c ∧ c.reads = .ok keys ∧ key ∈ keys

/-- The edges of the graph of a store are the reads by its formulas. A
store has a graph only if the keys of all formulas can be listed. -/
theorem reads_ofStore (hgraph : Graph.ofStore store = .ok graph) : graph.Reads = store.Reads := by
  funext cell key
  apply propext
  constructor
  · intro hreads
    have hmem := Graph.mem_names_of_reads hreads
    obtain ⟨c, hc, -⟩ := hasFormula_iff.mp ((Graph.mem_names_ofStore hgraph).mp hmem)
    obtain ⟨keys, hkeys, hiff⟩ := (Graph.holds_of_ofStore hgraph hc).reads_iff
    exact ⟨c, keys, hc, hkeys, (hiff key).mp hreads⟩
  · rintro ⟨c, keys, hc, hkeys, hkey⟩
    exact (Graph.reads_iff_of_find? hgraph hc hkeys).mpr hkey

/-- The affected cells are the formulas whose reads lead to the edited
key, and the edited cell if it is a formula. -/
theorem mem_affected_along_iff (hgraph : Graph.ofStore store = .ok graph) (e : graph.Enumeration)
    (horder : e.affected store edited = .ok order) {key : Text} :
    key ∈ order ↔
      store.hasFormula key = true ∧ (TransGen store.Reads key edited ∨ key = edited) := by
  have hmem := e.mem_affected horder (k := key)
  rw [reads_ofStore hgraph] at hmem
  constructor
  · intro hkey
    refine ⟨e.hasFormula_of_mem_affected hgraph horder hkey, ?_⟩
    exact (hmem.mp hkey).imp_right And.left
  · rintro ⟨hformula, hkey | rfl⟩
    · exact hmem.mpr (.inl hkey)
    · exact hmem.mpr (.inr ⟨rfl, hformula⟩)

theorem mem_affected_iff (hgraph : Graph.ofStore store = .ok graph)
    (horder : store.affected graph edited = .ok order) {key : Text} :
    key ∈ order ↔
      store.hasFormula key = true ∧ (TransGen store.Reads key edited ∨ key = edited) := by
  rw [← Graph.Enumeration.affected_asListed] at horder
  exact mem_affected_along_iff hgraph _ horder

-- ====================================================== what a refresh changes

/-- A refresh changes some of the cells that it goes through, in their
order: each of them once, and others not at all. -/
theorem keys_refresh_sublist {keys : List Text} (h : store.refresh settings keys = .ok changes) :
    (changes.map (·.1)).Sublist keys := by
  induction keys generalizing store changes with
  | nil =>
      cases h
      exact List.Sublist.slnil
  | cons key keys ih =>
      rw [refresh] at h
      cases hcell : store.find? key with
      | none =>
          rw [hcell] at h
          cases h
      | some cell =>
          simp only [hcell] at h
          split at h
          · exact (ih h).cons key
          · obtain ⟨others, hothers, h⟩ := bind_eq_ok.mp h
            cases h
            exact (ih hothers).cons_cons key

-- ====================================================== the affected cells

/-- The cells to evaluate after an edit, and what evaluating them
changes: they are exactly the formulas that the edit reaches, each once,
and some of them change, in their order. -/
structure Refreshed (store : Store) (edited : Text) (order : List Text) (changes : Changes) :
    Prop where
  distinct : order.Nodup
  mem : ∀ key, key ∈ order ↔
    store.hasFormula key = true ∧ (TransGen store.Reads key edited ∨ key = edited)
  changed : (changes.map (·.1)).Sublist order

theorem refreshed_along (hgraph : Graph.ofStore store = .ok graph) (e : graph.Enumeration)
    (horder : e.affected store edited = .ok order)
    (hrefresh : store.refresh settings order = .ok changes) :
    store.Refreshed edited order changes where
  distinct := e.nodup_affected horder
  mem _ := mem_affected_along_iff hgraph e horder
  changed := keys_refresh_sublist hrefresh

/-- After an edit of a legible sheet the cells to evaluate are the
formulas that the edit reaches. Evaluating them succeeds, since each is
there. All this is the same by a graph built before and without one, and
it holds in whatever order the sets of the graph are gone through. -/
theorem affected_refreshed (h : store.Legible) (settings : Settings) (edited : Text) :
    ∃ graph order changes, Graph.ofStore store = .ok graph ∧
      store.Refreshed edited order changes ∧
      (∀ prebuilt, prebuilt = none ∨ prebuilt = some graph →
        (do store.affected (← store.graphOr prebuilt) edited) = .ok order ∧
        (do store.recalculateDependents settings (← store.graphOr prebuilt) edited)
          = .ok changes) ∧
      ∀ e : graph.Enumeration, ∃ order changes, store.Refreshed edited order changes ∧
        e.affected store edited = .ok order ∧
        e.recalculateDependents store settings edited = .ok changes := by
  obtain ⟨graph, hgraph, hlegible⟩ := h.graph
  have hevery : ∀ e : graph.Enumeration, ∃ order changes, store.Refreshed edited order changes ∧
      e.affected store edited = .ok order ∧
      e.recalculateDependents store settings edited = .ok changes := by
    intro e
    obtain ⟨order, changes, horder, hrefresh, hchanges⟩ :=
      h.refresh_along_ok hgraph hlegible e settings edited
    exact ⟨order, changes, refreshed_along hgraph e horder hrefresh, horder, hchanges⟩
  obtain ⟨order, changes, hrefreshed, horder, hchanges⟩ := hevery (.asListed graph)
  rw [Graph.Enumeration.affected_asListed] at horder
  rw [Graph.Enumeration.recalculateDependents_asListed] at hchanges
  refine ⟨graph, order, changes, hgraph, hrefreshed, ?_, hevery⟩
  intro prebuilt hprebuilt
  have hsame : store.graphOr prebuilt = .ok graph := by
    rcases hprebuilt with rfl | rfl
    · exact hgraph
    · rfl
  rw [hsame]
  exact ⟨horder, hchanges⟩

/-- Two cells that read each other, one of which also reads a third, and
a formula apart from them. An edit of the third reaches both and not the
last one. -/
theorem affected_refreshed_loop :
    let store := (((empty.typed "A1" "5").typed "B1" "=A1+C1").typed "C1" "=B1").typed "D1" "=E1"
    store.Legible ∧ ∃ graph order changes, Graph.ofStore store = .ok graph ∧
      order.Nodup ∧ (changes.map (·.1)).Sublist order ∧
      (∀ key : Text, key = "B1" ∨ key = "C1" → key ∈ order) ∧ ("D1" : Text) ∉ order ∧
      store.recalculateDependents { now := default } graph "A1" = .ok changes := by
  intro store
  have hlegible : store.Legible :=
    (((legible_empty.typed ⟨⟨_, rfl⟩, [], rfl, nofun⟩).typed
      ⟨⟨_, rfl⟩, ["A1", "C1"], rfl, List.forall_mem_cons.mpr
        ⟨⟨_, rfl⟩, List.forall_mem_singleton.mpr ⟨_, rfl⟩⟩⟩).typed
      ⟨⟨_, rfl⟩, ["B1"], rfl, List.forall_mem_singleton.mpr ⟨_, rfl⟩⟩).typed
      ⟨⟨_, rfl⟩, ["E1"], rfl, List.forall_mem_singleton.mpr ⟨_, rfl⟩⟩
  obtain ⟨graph, order, changes, hgraph, ⟨hnodup, hmem, hsublist⟩, hrun, -⟩ :=
    affected_refreshed hlegible { now := default } "A1"
  have hB : store.Reads "B1" "A1" := ⟨_, ["A1", "C1"], rfl, rfl, by decide⟩
  have hC : store.Reads "C1" "B1" := ⟨_, ["B1"], rfl, rfl, by decide⟩
  -- the last formula reads a key without a formula, so its reads lead no further
  have hD : ¬TransGen store.Reads "D1" "A1" := by
    intro hpath
    obtain ⟨key, ⟨c, keys, hc, hkeys, hkey⟩, hrest⟩ := TransGen.head'_iff.mp hpath
    cases hc
    obtain rfl : [Text.ofString "E1"] = keys := Except.ok.inj hkeys
    rw [List.mem_singleton.mp hkey] at hrest
    rcases Relation.ReflTransGen.cases_head hrest with heq | ⟨k, ⟨c, -, hc, -⟩, -⟩
    · revert heq
      decide
    · cases hc
  refine ⟨hlegible, graph, order, changes, hgraph, hnodup, hsublist, ?_, ?_,
    (hrun (some graph) (.inr rfl)).2⟩
  · rintro key (rfl | rfl)
    · exact (hmem _).mpr ⟨rfl, .inl (TransGen.single hB)⟩
    · exact (hmem _).mpr ⟨rfl, .inl (TransGen.head hC (TransGen.single hB))⟩
  · intro hlast
    rcases ((hmem _).mp hlast).2 with hpath | heq
    · exact hD hpath
    · revert heq
      decide

end Spreadsheet.Store
