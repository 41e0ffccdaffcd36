/-
What was put into a store, as against what was computed for it.

# Inputs

The display of a formula is computed, all else of a cell is given: the
value, the formula, and the display of a cell that holds no formula. The
input of a cell is the cell without what was computed (`Cell.input`). Two
stores with the same input differ at most in what their formulas show; they
are the same store once their formulas show the same (`eq_of_inputs`).

# Where it is used

A computation that writes displays back keeps the input of its store, so
what does not read displays is the same before and after: the graph of the
store, its order of evaluation and its cycles. And a store that is settled
is determined by its input, so two histories with one input end in the same
store if both end settled.
-/
import Spreadsheet.Store

namespace Spreadsheet

/-- The cell without the display of its formula. -/
def Cell.input (cell : Cell) : Cell :=
  if cell.hasFormula then { cell with display := none } else cell

namespace Cell

theorem formula_input (cell : Cell) : cell.input.formula = cell.formula := by
  unfold input
  split <;> rfl

theorem value_input (cell : Cell) : cell.input.value = cell.value := by
  unfold input
  split <;> rfl

theorem hasFormula_congr {cell cell' : Cell} (h : cell.formula = cell'.formula) :
    cell.hasFormula = cell'.hasFormula := by
  unfold hasFormula
  rw [h]

theorem hasFormula_input (cell : Cell) : cell.input.hasFormula = cell.hasFormula :=
  hasFormula_congr cell.formula_input

theorem formula_eq_of_input {cell cell' : Cell} (h : cell.input = cell'.input) :
    cell.formula = cell'.formula := by
  rw [← formula_input cell, h, formula_input]

theorem input_setDisplay {cell : Cell} (h : cell.hasFormula = true) (display : Option Content) :
    { cell with display }.input = cell.input := by
  have hnew : { cell with display }.hasFormula = true := h
  unfold input
  rw [if_pos hnew, if_pos h]

/-- A cell is its input, with a display if it holds a formula. What a
plain value shows is part of its input. -/
theorem eq_of_input {cell cell' : Cell} (h : cell.input = cell'.input)
    (hdisplay : cell.hasFormula = true → cell.display = cell'.display) : cell = cell' := by
  have hformula := formula_eq_of_input h
  have hvalue : cell.value = cell'.value := by
    rw [← value_input cell, h, value_input]
  by_cases hf : cell.hasFormula = true
  · obtain ⟨value, formula, display⟩ := cell
    obtain ⟨value', formula', display'⟩ := cell'
    cases hvalue
    cases hformula
    cases hdisplay hf
    rfl
  · have hf' : ¬cell'.hasFormula = true := by rwa [hasFormula_congr hformula.symm]
    unfold input at h
    rwa [if_neg hf, if_neg hf'] at h

end Cell

namespace Store

/-- The cells without the displays of formulas. -/
def inputs (store : Store) : Entries Cell :=
  store.entries.map fun entry => (entry.1, entry.2.input)

/-- The cell under a key, without the display of its formula. -/
def input? (store : Store) (key : Text) : Option Cell :=
  (store.find? key).map Cell.input

variable {s t : Store}

theorem find?_inputs (store : Store) (key : Text) : store.inputs.find? key = store.input? key :=
  Entries.find?_map Cell.input store.entries key

theorem names_inputs (store : Store) : store.inputs.names = store.entries.names :=
  Entries.names_map Cell.input store.entries

/-- Inputs are told apart by the keys, in order, and what was put under
these. -/
theorem inputs_eq_iff :
    s.inputs = t.inputs ↔
      s.entries.names = t.entries.names ∧ ∀ key, s.input? key = t.input? key := by
  constructor
  · intro h
    refine ⟨by rw [← names_inputs s, h, names_inputs], fun key => ?_⟩
    rw [← find?_inputs, h, find?_inputs]
  · rintro ⟨hnames, hinput⟩
    have hdistinct : s.inputs.names.Nodup := by
      rw [names_inputs]
      exact s.distinct
    refine Entries.eq_of_find? hdistinct ?_ fun key _ => ?_
    · rw [names_inputs, names_inputs, hnames]
    · rw [find?_inputs, find?_inputs, hinput]

/-- Where one store has a cell, another with the same input there has
one with that input. -/
theorem find?_of_input? {key : Text} (h : s.input? key = t.input? key) {cell : Cell}
    (hcell : s.find? key = some cell) :
    ∃ cell', t.find? key = some cell' ∧ cell.input = cell'.input := by
  unfold input? at h
  rw [hcell] at h
  obtain ⟨cell', hcell', hinput⟩ := Option.map_eq_some_iff.mp h.symm
  exact ⟨cell', hcell', hinput.symm⟩

/-- Whether a formula stands under a key is a matter of the input
there. -/
theorem hasFormula_eq_of_input? {key : Text} (h : s.input? key = t.input? key) :
    s.hasFormula key = t.hasFormula key := by
  unfold input? at h
  unfold hasFormula
  cases hs : s.find? key with
  | none =>
      rw [hs] at h
      rw [Option.map_eq_none_iff.mp h.symm]
  | some cell =>
      obtain ⟨cell', hcell', hinput⟩ := find?_of_input? h hs
      rw [hcell']
      exact Cell.hasFormula_congr (Cell.formula_eq_of_input hinput)

/-- The same input under a key, and the same display if it is a formula,
make the same cell. -/
theorem find?_eq_of_input? {key : Text} (h : s.input? key = t.input? key)
    (hdisplay : ∀ cell cell', s.find? key = some cell → t.find? key = some cell' →
      cell.formula = cell'.formula → cell.hasFormula = true → cell.display = cell'.display) :
    s.find? key = t.find? key := by
  cases hcell : s.find? key with
  | none =>
      unfold input? at h
      rw [hcell] at h
      exact (Option.map_eq_none_iff.mp h.symm).symm
  | some cell =>
      obtain ⟨cell', hcell', hinput⟩ := find?_of_input? h hcell
      rw [hcell', Cell.eq_of_input hinput
        (hdisplay cell cell' hcell hcell' (Cell.formula_eq_of_input hinput))]

end Store

end Spreadsheet
