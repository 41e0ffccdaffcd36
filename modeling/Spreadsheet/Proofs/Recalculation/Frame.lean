/-
What an edit leaves alone.

# Displays only

An edit writes back the displays that a refresh changed, and a refresh
changes only cells that the edit affects. All of these hold formulas, so
what was put into the cells stays (`inputs_write`), and with it the graph.

# The frame

By the formulas after the edit, a cell that does not read the edited one,
directly or through others, is not affected and is still the cell it was
(`edit_keeps`). The keys are those that were there and the edited one, and
every other cell keeps its content and its formula (`edit_frame`). No key
goes away, not even where a cell is emptied.

# Any store

Nothing of this asks what the cells show, so it holds of any store, cycles
and stale displays included; nor does it ask for texts, as a client may have
sent other values.
-/
import Spreadsheet.Proofs.Recalculation.Affected
import Spreadsheet.Proofs.Recalculation.Pass

namespace Spreadsheet.Store

open Relation (TransGen)

variable {settings : Settings} {store result : Store} {key raw : Text} {order : List Text}
  {changes : Changes}

-- ====================================================== displays written back

theorem inputs_setDisplay (h : store.hasFormula key = true) (display : Option Content) :
    (store.setDisplay key display).inputs = store.inputs := by
  refine inputs_eq_iff.mpr ⟨names_setDisplay .., fun k => ?_⟩
  obtain ⟨cell, hcell, hformula⟩ := hasFormula_iff.mp h
  unfold input?
  rw [find?_setDisplay]
  by_cases hk : k = key
  · rw [if_pos hk, hk, hcell]
    exact congrArg some (Cell.input_setDisplay hformula display)
  · rw [if_neg hk]

/-- Displays written to formulas leave what was put into the cells. A
display written to a plain value would be part of its input. -/
theorem inputs_write (h : ∀ change ∈ changes, store.hasFormula change.1 = true) :
    (store.write changes).inputs = store.inputs := by
  induction changes generalizing store with
  | nil => rfl
  | cons change changes ih =>
      obtain ⟨hchange, hchanges⟩ := List.forall_mem_cons.mp h
      have hset := inputs_setDisplay hchange change.2
      refine Eq.trans (ih fun other hother => ?_) hset
      rw [hasFormula_eq_of_input? ((inputs_eq_iff.mp hset).2 other.1)]
      exact hchanges other hother

-- ====================================================== after an edit

/-- An edit that succeeded leaves the input that was there, with the
content typed in, and the cells that it does not affect. -/
theorem edit_keeps (h : store.edit settings key raw = .ok result) :
    result.inputs = (store.typed key raw).inputs ∧
      ∀ k, ¬(TransGen result.Reads k (Text.upper key) ∨ k = Text.upper key) →
        result.find? k = store.find? k := by
  obtain ⟨graph, hgraph, h⟩ := bind_eq_ok.mp h
  obtain ⟨changes, hchanges, h⟩ := bind_eq_ok.mp h
  cases h
  obtain ⟨-, order, horder, hrefresh⟩ := recalculateDependents_eq_ok.mp hchanges
  have hgraph : Graph.ofStore (store.typed key raw) = .ok graph := hgraph
  have hchanged : ∀ k ∈ changes.map (·.1), k ∈ order := (keys_refresh_sublist hrefresh).subset
  have hinputs : ((store.typed key raw).write changes).inputs = (store.typed key raw).inputs :=
    inputs_write fun change hchange =>
      hasFormula_of_mem_affected hgraph horder (hchanged _ (List.mem_map.mpr ⟨change, hchange, rfl⟩))
  have hreads : ((store.typed key raw).write changes).Reads = (store.typed key raw).Reads := by
    rw [← reads_ofStore hgraph, ← reads_ofStore ((Graph.ofStore_congr hinputs).trans hgraph)]
  refine ⟨hinputs, fun k hk => ?_⟩
  have hne : k ≠ Text.upper key := fun heq => hk (.inr heq)
  have hunchanged : k ∉ changes.map (·.1) := by
    intro hmem
    have haffected := ((mem_affected_iff hgraph horder).mp (hchanged k hmem)).2
    rw [← hreads] at haffected
    exact hk haffected
  calc ((store.typed key raw).write changes).find? k
      = (store.typed key raw).find? k := find?_write_of_not_mem hunchanged
    _ = store.find? k := find?_put_of_ne hne _

/-- Where two stores have the same input under a key, what one has there
has the content and the formula of what the other has. Only displays may
differ. -/
theorem exists_same_input {s t : Store} {k : Text} (h : s.input? k = t.input? k) {cell : Cell}
    (hcell : s.find? k = some cell) :
    ∃ cell', t.find? k = some cell' ∧ cell'.value = cell.value ∧ cell'.formula = cell.formula := by
  obtain ⟨cell', hcell', hinput⟩ := find?_of_input? h hcell
  refine ⟨cell', hcell', ?_, (Cell.formula_eq_of_input hinput).symm⟩
  rw [← Cell.value_input cell', ← hinput, Cell.value_input]

/-- The frame of an edit. The keys are those that were there and the
edited one. The edited cell holds what was typed. Every other cell keeps
its content and its formula, and its display too unless it reads the
edited cell in the end, directly or through others. -/
theorem edit_frame (h : store.edit settings key raw = .ok result) :
    (∀ k, k ∈ result.entries.names ↔ k = Text.upper key ∨ k ∈ store.entries.names) ∧
    (∃ cell, result.find? (Text.upper key) = some cell ∧
      cell.value = (Cell.ofInput raw).value ∧ cell.formula = (Cell.ofInput raw).formula) ∧
    ∀ k old, k ≠ Text.upper key → store.find? k = some old →
      ∃ new, result.find? k = some new ∧ new.value = old.value ∧ new.formula = old.formula ∧
        (¬TransGen result.Reads k (Text.upper key) → new.display = old.display) := by
  obtain ⟨hinputs, hkept⟩ := edit_keeps h
  obtain ⟨hnames, hinput⟩ := inputs_eq_iff.mp hinputs
  refine ⟨fun k => ?_, ?_, fun k old hne hold => ?_⟩
  · rw [hnames]
    exact Entries.mem_names_put
  · exact exists_same_input (hinput _).symm (find?_put_self ..)
  · have htyped : (store.typed key raw).find? k = some old := by
      rw [← hold]
      exact find?_put_of_ne hne _
    obtain ⟨new, hnew, hvalue, hformula⟩ := exists_same_input (hinput k).symm htyped
    refine ⟨new, hnew, hvalue, hformula, fun hreads => ?_⟩
    have hsame := hkept k (not_or.mpr ⟨hreads, hne⟩)
    rw [hnew, hold] at hsame
    rw [Option.some.inj hsame]

/-- A cell that two formulas on a cycle read is made a formula itself. A
formula apart from them keeps what it shows, stale as it is. -/
theorem edit_frame_loop :
    let store := loop.put "D1" ⟨[], some (.text "=E1"), some (.text "p")⟩
    ∃ result, store.edit { now := default } "a1" "=7" = .ok result ∧
      (∀ k, k ∈ result.entries.names ↔ k = "A1" ∨ k ∈ store.entries.names) ∧
      (∃ cell, result.find? "A1" = some cell ∧ cell.value = [] ∧
        cell.formula = some (.text "=7")) ∧
      ∃ cell, result.find? "D1" = some cell ∧ cell.formula = some (.text "=E1") ∧
        cell.display = some (.text "p") := by
  intro store
  have htyped : (loop.typed "D1" "=E1").Legible :=
    legible_loop.typed ⟨⟨_, rfl⟩, ["E1"], rfl, List.forall_mem_singleton.mpr ⟨_, rfl⟩⟩
  have hlegible : store.Legible := htyped.of_inputs rfl
  have hedit : LegibleEdit ("a1", "=7") := ⟨⟨_, rfl⟩, [], rfl, nofun⟩
  obtain ⟨result, hresult⟩ := edit_ok { now := default } (hlegible.typed hedit)
  obtain ⟨hnames, hedited, hothers⟩ := edit_frame hresult
  obtain ⟨cell, hcell, -, hformula, hdisplay⟩ := hothers "D1" _ (by decide) rfl
  -- the last formula reads a key without a cell, so its reads lead no further
  have hreads : ¬TransGen result.Reads "D1" "A1" := by
    intro hpath
    obtain ⟨next, ⟨c, keys, hc, hkeys, hnext⟩, hrest⟩ := TransGen.head'_iff.mp hpath
    rw [hcell] at hc
    cases hc
    unfold Cell.reads at hkeys
    rw [hformula] at hkeys
    obtain rfl : [Text.ofString "E1"] = keys := Except.ok.inj hkeys
    rw [List.mem_singleton.mp hnext] at hrest
    rcases Relation.ReflTransGen.cases_head hrest with heq | ⟨k, ⟨c, -, hc, -⟩, -⟩
    · revert heq
      decide
    · have hmem := (hnames "E1").mp (Entries.mem_names_iff.mpr ⟨c, hc⟩)
      revert hmem
      decide
  exact ⟨result, hresult, hnames, hedited, cell, hcell, hformula, hdisplay hreads⟩

end Spreadsheet.Store
