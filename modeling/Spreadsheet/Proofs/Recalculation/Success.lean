/-
When edits succeed.

# What may fail

An edit fails only where a key cannot be read: in a range that a formula
names, or when cells are put in the order of the grid. A formula itself
never makes it fail, for what goes wrong in its evaluation is shown in the
cell.

# Legible sheets

An edit that leaves a sheet on which every key can be placed (`Legible`)
succeeds (`edit_ok`). The graph of the sheet is found and is legible
(`Legible.graph`), so it is searched for a cycle and the affected cells are
put in order, along any enumeration (`affected_along_ok`). No cell that is
to be renewed is ever missing, since the affected cells hold formulas
(`refresh_along_ok`). Cycles do no harm.
-/
import Spreadsheet.Proofs.Dependency.Legible
import Spreadsheet.Proofs.Recalculation.Edit

namespace Spreadsheet

-- ====================================================== legible sheets

/-- A cell whose formula names keys that are placed, if it holds one. -/
def Cell.Legible (cell : Cell) : Prop := ∃ keys, cell.reads = .ok keys ∧ ∀ key ∈ keys, Placed key

namespace Store

variable {settings : Settings} {store s t : Store} {key raw : Text}

/-- A store of legible cells whose formulas stand under keys that are
placed. -/
structure Legible (store : Store) : Prop where
  cells : ∀ key cell, store.find? key = some cell → cell.Legible
  keys : ∀ key, store.hasFormula key = true → Placed key

/-- An edit that types legible content under a key that is placed. -/
structure LegibleEdit (edit : Text × Text) : Prop where
  key : Placed (Text.upper edit.1)
  content : (Cell.ofInput edit.2).Legible

theorem legible_empty : empty.Legible where
  cells := nofun
  keys := nofun

theorem Legible.typed (h : store.Legible) (hedit : LegibleEdit (key, raw)) :
    (store.typed key raw).Legible where
  cells k cell hcell := by
    unfold Store.typed at hcell
    rw [find?_put] at hcell
    split at hcell
    · cases hcell
      exact hedit.content
    · exact h.cells k cell hcell
  keys k hformula := by
    by_cases hk : k = Text.upper key
    · rw [hk]
      exact hedit.key
    · refine h.keys k ?_
      obtain ⟨cell, hcell, hf⟩ := hasFormula_iff.mp hformula
      unfold Store.typed at hcell
      rw [find?_put_of_ne hk] at hcell
      exact hasFormula_iff.mpr ⟨cell, hcell, hf⟩

/-- Three cells, two of which read each other. -/
def loop : Store :=
  ((empty.typed "A1" "5").typed "B1" "=A1+C1").typed "C1" "=B1"

theorem legible_loop : loop.Legible :=
  ((legible_empty.typed ⟨⟨_, rfl⟩, [], rfl, nofun⟩).typed
    ⟨⟨_, rfl⟩, ["A1", "C1"], rfl, List.forall_mem_cons.mpr
      ⟨⟨_, rfl⟩, List.forall_mem_singleton.mpr ⟨_, rfl⟩⟩⟩).typed
    ⟨⟨_, rfl⟩, ["B1"], rfl, List.forall_mem_singleton.mpr ⟨_, rfl⟩⟩

/-- Whether a store is legible is decided by its input: by its keys and
formulas, and not by what is shown. -/
theorem Legible.of_inputs (h : s.Legible) (hinputs : s.inputs = t.inputs) : t.Legible where
  cells key cell hcell := by
    obtain ⟨cell', hcell', hinput⟩ := find?_of_input? ((inputs_eq_iff.mp hinputs).2 key).symm hcell
    have hlegible := h.cells key cell' hcell'
    unfold Cell.Legible Cell.reads at hlegible ⊢
    rwa [Cell.formula_eq_of_input hinput]
  keys key hformula := by
    rw [← hasFormula_eq_of_input? ((inputs_eq_iff.mp hinputs).2 key)] at hformula
    exact h.keys key hformula

/-- A legible store has a graph, and a legible one: all its formulas can
be read, so each of its cells is taken in without a fault. -/
theorem Legible.graph (h : store.Legible) :
    ∃ graph, Graph.ofStore store = .ok graph ∧ graph.Legible := by
  have hgraph : ∃ graph, Graph.ofStore store = .ok graph := by
    rw [Graph.ofStore_eq_foldlM]
    refine foldlM_ok (fun graph entry hentry => ?_) Graph.empty
    obtain ⟨keys, hkeys, -⟩ := h.cells entry.1 entry.2 (mem_entries.mp hentry)
    unfold Graph.withCell
    split
    · rw [hkeys]
      exact ⟨_, rfl⟩
    · exact ⟨graph, rfl⟩
  obtain ⟨graph, hgraph⟩ := hgraph
  refine ⟨graph, hgraph, fun key hkey => h.keys key ((Graph.mem_names_ofStore hgraph).mp hkey),
    fun cell key hreads => ?_⟩
  obtain ⟨c, hc, -⟩ := hasFormula_iff.mp
    ((Graph.mem_names_ofStore hgraph).mp (Graph.mem_names_of_reads hreads))
  obtain ⟨keys, hkeys, hplaced⟩ := h.cells cell c hc
  exact hplaced key ((Graph.reads_iff_of_find? hgraph hc hkeys).mp hreads)

/-- A refresh succeeds if there is a cell under each key that it goes
through. -/
theorem refresh_ok {keys : List Text} (h : ∀ key ∈ keys, ∃ cell, store.find? key = some cell) :
    ∃ changes, store.refresh settings keys = .ok changes := by
  induction keys generalizing store with
  | nil => exact ⟨[], rfl⟩
  | cons key keys ih =>
      obtain ⟨cell, hcell⟩ := h key (List.mem_cons_self ..)
      have hrest : ∀ k ∈ keys, ∃ cell, store.find? k = some cell :=
        fun k hk => h k (List.mem_cons_of_mem _ hk)
      rw [refresh]
      simp only [hcell]
      split
      · exact ih hrest
      · have hput : ∀ k ∈ keys, ∃ c, (store.put key (cell.renewed settings store)).find? k
            = some c := by
          intro k hk
          rw [find?_put]
          split
          · exact ⟨_, rfl⟩
          · exact hrest k hk
        obtain ⟨changes, hchanges⟩ := ih hput
        exact ⟨_, bind_eq_ok.mpr ⟨changes, hchanges, rfl⟩⟩

-- ====================================================== edits

namespace Legible

variable (h : store.Legible)
include h

/-- On a legible sheet the cells that an edit affects can be put in
order, along any enumeration. -/
theorem affected_along_ok {graph : Graph} (hlegible : graph.Legible) (e : graph.Enumeration)
    (key : Text) : ∃ order, e.affected store key = .ok order := by
  refine e.evaluationOrder_ok hlegible fun k hk => ?_
  rcases List.mem_append.mp hk with hk | hk
  · obtain ⟨r, hr, -⟩ := Relation.TransGen.head'_iff.mp (e.mem_dependents.mp hk)
    exact hlegible.names k (Graph.mem_names_of_reads hr)
  · split at hk
    · next hformula =>
      rw [List.mem_singleton.mp hk]
      exact h.keys _ hformula
    · cases hk

/-- On a legible sheet a refresh along an enumeration of its graph
succeeds, and with it the order of the affected cells: there is a cell
under each of them. -/
theorem refresh_along_ok {graph : Graph} (hgraph : Graph.ofStore store = .ok graph)
    (hlegible : graph.Legible) (e : graph.Enumeration) (settings : Settings) (key : Text) :
    ∃ order changes, e.affected store key = .ok order ∧
      store.refresh settings order = .ok changes ∧
      e.recalculateDependents store settings key = .ok changes := by
  obtain ⟨cycle, hcycle⟩ := e.cycle?_ok hlegible
  obtain ⟨order, horder⟩ := h.affected_along_ok hlegible e key
  have hrefresh : ∃ changes, store.refresh settings order = .ok changes := refresh_ok fun k hk =>
    (hasFormula_iff.mp (e.hasFormula_of_mem_affected hgraph horder hk)).imp fun _ => And.left
  obtain ⟨changes, hchanges⟩ := hrefresh
  exact ⟨order, changes, horder, hchanges,
    e.recalculateDependents_eq_ok.mpr ⟨⟨cycle, hcycle⟩, order, horder, hchanges⟩⟩

/-- On a legible sheet a refresh succeeds, and with it the order of the
affected cells. -/
theorem refresh_affected_ok (settings : Settings) (key : Text) :
    ∃ graph order changes, Graph.ofStore store = .ok graph ∧
      store.affected graph key = .ok order ∧ store.refresh settings order = .ok changes ∧
      store.recalculateDependents settings graph key = .ok changes := by
  obtain ⟨graph, hgraph, hlegible⟩ := h.graph
  obtain ⟨order, changes, hfound⟩ :=
    h.refresh_along_ok hgraph hlegible (.asListed graph) settings key
  rw [Graph.Enumeration.affected_asListed,
    Graph.Enumeration.recalculateDependents_asListed] at hfound
  exact ⟨graph, order, changes, hgraph, hfound⟩

end Legible

/-- An edit succeeds if it leaves a legible sheet. -/
theorem edit_ok (settings : Settings) (h : (store.typed key raw).Legible) :
    ∃ result, store.edit settings key raw = .ok result := by
  obtain ⟨graph, order, changes, hgraph, -, -, hrefresh⟩ :=
    h.refresh_affected_ok settings (Text.upper key)
  exact ⟨_, bind_eq_ok.mpr ⟨graph, hgraph, bind_eq_ok.mpr ⟨changes, hrefresh, rfl⟩⟩⟩

end Store

end Spreadsheet
