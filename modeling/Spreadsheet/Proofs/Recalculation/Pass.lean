/-
One full pass.

# Against one store

A pass evaluates every formula against one and the same store and writes
back what changed. In a store of texts this comes to the same as renewing
all formulas at once (`find?_pass`): a display that is not written back is
the one that would have been. Each cell is written once at most
(`nodup_recalculate`), so the order of the changes does not matter to what
they leave.

# At rest

A pass changes nothing just when every formula is fresh
(`recalculate_eq_nil_iff`). So to be at rest is a fact about each cell by
itself, and the passes that follow each other need only be compared cell by
cell.

# What a pass keeps

A pass keeps the input of a store, the keys and their order, and that its
cells are texts.
-/
import Spreadsheet.Proofs.Recalculation.Refresh

namespace Spreadsheet.Store

variable {settings : Settings} {store : Store} {key : Text}

-- ====================================================== changes written back

/-- A cell that no change is written to stays as it is. -/
theorem find?_write_of_not_mem {changes : Changes} (h : key ∉ changes.map (·.1)) :
    (store.write changes).find? key = store.find? key := by
  induction changes generalizing store with
  | nil => rfl
  | cons change changes ih =>
      obtain ⟨hne, hchanges⟩ := not_or.mp (fun hmem => h (List.mem_cons.mpr hmem))
      show ((store.setDisplay change.1 change.2).write changes).find? key = _
      rw [ih hchanges, find?_setDisplay, if_neg hne]

/-- A cell shows the display written to it, if it is written once. Of
two changes to one cell the later would stay. -/
theorem find?_write_of_mem {changes : Changes} (hdistinct : (changes.map (·.1)).Nodup)
    {display : Option Content} (h : (key, display) ∈ changes) :
    (store.write changes).find? key = (store.find? key).map ({ · with display }) := by
  induction changes generalizing store with
  | nil => cases h
  | cons change changes ih =>
      obtain ⟨hnew, hrest⟩ := List.nodup_cons.mp hdistinct
      show ((store.setDisplay change.1 change.2).write changes).find? key = _
      rcases List.mem_cons.mp h with rfl | h
      · rw [find?_write_of_not_mem hnew, find?_setDisplay, if_pos rfl]
      · have hne : key ≠ change.1 := by
          rintro rfl
          exact hnew (List.mem_map.mpr ⟨_, h, rfl⟩)
        rw [ih hrest h, find?_setDisplay, if_neg hne]

theorem names_write (store : Store) (changes : Changes) :
    (store.write changes).entries.names = store.entries.names := by
  induction changes generalizing store with
  | nil => rfl
  | cons change changes ih => exact (ih _).trans (names_setDisplay ..)

-- ====================================================== one pass

/-- What a pass changes of an entry. -/
def passChange (settings : Settings) (store : Store) (entry : Text × Cell) :
    Option (Text × Option Content) :=
  if entry.2.hasFormula then
    let display := Eval.evaluate (.ofStore store settings) entry.2.formula
    if sameDisplay entry.2.display display then none else some (entry.1, display)
  else none

theorem recalculate_eq (settings : Settings) (store : Store) :
    store.recalculate settings = store.entries.filterMap (passChange settings store) := rfl

theorem passChange_eq_some {entry : Text × Cell} {change : Text × Option Content} :
    passChange settings store entry = some change ↔
      entry.2.hasFormula = true ∧
        change = (entry.1, Eval.evaluate (.ofStore store settings) entry.2.formula) ∧
        ¬sameDisplay entry.2.display change.2 = true := by
  unfold passChange
  by_cases hformula : entry.2.hasFormula = true
  · rw [if_pos hformula]
    dsimp only
    split
    · next hsame =>
      constructor
      · intro h
        cases h
      · rintro ⟨-, rfl, hne⟩
        exact absurd hsame hne
    · next hne =>
      constructor
      · intro h
        cases h
        exact ⟨hformula, rfl, hne⟩
      · rintro ⟨-, rfl, -⟩
        rfl
  · rw [if_neg hformula]
    constructor
    · intro h
      cases h
    · rintro ⟨h, -⟩
      exact absurd h hformula

/-- A pass changes the formulas that do not show what they evaluate
to. -/
theorem mem_recalculate {display : Option Content} :
    (key, display) ∈ store.recalculate settings ↔
      ∃ cell, store.find? key = some cell ∧ cell.hasFormula = true ∧
        display = Eval.evaluate (.ofStore store settings) cell.formula ∧
        ¬sameDisplay cell.display display = true := by
  rw [recalculate_eq, List.mem_filterMap]
  constructor
  · rintro ⟨⟨k, cell⟩, hentry, h⟩
    obtain ⟨hformula, hchange, hne⟩ := passChange_eq_some.mp h
    cases hchange
    exact ⟨cell, mem_entries.mp hentry, hformula, rfl, hne⟩
  · rintro ⟨cell, hcell, hformula, rfl, hne⟩
    exact ⟨(key, cell), mem_entries.mpr hcell, passChange_eq_some.mpr ⟨hformula, rfl, hne⟩⟩

theorem exists_of_changed (h : key ∈ (store.recalculate settings).map (·.1)) :
    ∃ cell, store.find? key = some cell ∧ cell.hasFormula = true ∧
      ¬sameDisplay cell.display (Eval.evaluate (.ofStore store settings) cell.formula) = true := by
  obtain ⟨⟨k, display⟩, hmem, rfl⟩ := List.mem_map.mp h
  obtain ⟨cell, hcell, hformula, rfl, hne⟩ := mem_recalculate.mp hmem
  exact ⟨cell, hcell, hformula, hne⟩

/-- A pass changes each cell once at most, for each key has one
entry. -/
theorem nodup_recalculate (settings : Settings) (store : Store) :
    ((store.recalculate settings).map (·.1)).Nodup := by
  have hsub : ∀ entries : Entries Cell,
      ((entries.filterMap (passChange settings store)).map (·.1)).Sublist entries.names := by
    intro entries
    induction entries with
    | nil => exact List.Sublist.slnil
    | cons entry entries ih =>
        cases hchange : passChange settings store entry with
        | none =>
            rw [List.filterMap_cons_none hchange]
            exact ih.cons entry.1
        | some change =>
            obtain ⟨-, rfl, -⟩ := passChange_eq_some.mp hchange
            rw [List.filterMap_cons_some hchange]
            exact ih.cons_cons entry.1
  exact store.distinct.sublist (hsub store.entries)

/-- The store after a full pass. -/
def pass (settings : Settings) (store : Store) : Store :=
  store.write (store.recalculate settings)

/-- In a store of texts a pass changes nothing just when every formula
is fresh. -/
theorem recalculate_eq_nil_iff (htextual : store.Textual) :
    store.recalculate settings = [] ↔ ∀ key, Fresh settings store key := by
  constructor
  · intro h key cell hcell hformula
    by_contra hne
    have hmem := mem_recalculate.mpr ⟨cell, hcell, hformula, rfl,
      fun hsame => hne ((htextual.sameDisplay_iff hcell settings).mp hsame)⟩
    rw [h] at hmem
    cases hmem
  · intro h
    refine List.eq_nil_iff_forall_not_mem.mpr fun ⟨key, display⟩ hmem => ?_
    obtain ⟨cell, hcell, hformula, rfl, hne⟩ := mem_recalculate.mp hmem
    exact hne ((htextual.sameDisplay_iff hcell settings).mpr (h key cell hcell hformula))

/-- A pass renews every formula against the store before it, so no
formula sees what another one shows after the pass. -/
theorem find?_pass (htextual : store.Textual) {cell : Cell} (hcell : store.find? key = some cell)
    (hformula : cell.hasFormula = true) :
    (store.pass settings).find? key = some (cell.renewed settings store) := by
  unfold pass
  by_cases hsame : sameDisplay cell.display
      (Eval.evaluate (.ofStore store settings) cell.formula) = true
  · have hkey : key ∉ (store.recalculate settings).map (·.1) := by
      intro hmem
      obtain ⟨cell', hcell', -, hne⟩ := exists_of_changed hmem
      rw [hcell] at hcell'
      cases hcell'
      exact hne hsame
    rw [find?_write_of_not_mem hkey, hcell,
      renewed_eq_self ((htextual.sameDisplay_iff hcell settings).mp hsame)]
  · rw [find?_write_of_mem (nodup_recalculate settings store)
      (mem_recalculate.mpr ⟨cell, hcell, hformula, rfl, hsame⟩), hcell]
    rfl

/-- A cell without a formula stays as it is. -/
theorem find?_pass_of_not_formula (h : ¬store.hasFormula key = true) :
    (store.pass settings).find? key = store.find? key := by
  refine find?_write_of_not_mem fun hmem => h ?_
  obtain ⟨cell, hcell, hformula, -⟩ := exists_of_changed hmem
  exact hasFormula_iff.mpr ⟨cell, hcell, hformula⟩

theorem Textual.pass (h : store.Textual) (settings : Settings) : (store.pass settings).Textual := by
  intro key cell hcell
  by_cases hformula : store.hasFormula key = true
  · obtain ⟨old, hold, hf⟩ := hasFormula_iff.mp hformula
    rw [find?_pass h hold hf] at hcell
    cases hcell
    exact (h key old hold).renewed h settings
  · rw [find?_pass_of_not_formula hformula] at hcell
    exact h key cell hcell

theorem inputs_pass (h : store.Textual) (settings : Settings) :
    (store.pass settings).inputs = store.inputs := by
  refine inputs_eq_iff.mpr ⟨names_write .., fun key => ?_⟩
  unfold input?
  by_cases hformula : store.hasFormula key = true
  · obtain ⟨cell, hcell, hf⟩ := hasFormula_iff.mp hformula
    rw [find?_pass h hcell hf, hcell]
    exact congrArg some (Cell.input_setDisplay hf _)
  · rw [find?_pass_of_not_formula hformula]

/-- After a pass a formula shows what it evaluated to before it. What
its inputs show may be different by then. -/
theorem display_pass (h : store.Textual) {cell : Cell}
    (hcell : (store.pass settings).find? key = some cell) (hformula : cell.hasFormula = true) :
    cell.display = Eval.evaluate (.ofStore store settings) cell.formula := by
  have hkey : store.hasFormula key = true := by
    rw [← hasFormula_eq_of_input? ((inputs_eq_iff.mp (inputs_pass h settings)).2 key)]
    exact hasFormula_iff.mpr ⟨cell, hcell, hformula⟩
  obtain ⟨old, hold, hf⟩ := hasFormula_iff.mp hkey
  rw [find?_pass h hold hf] at hcell
  cases hcell
  rfl

end Spreadsheet.Store
