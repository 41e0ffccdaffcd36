/-
What a formula reads of a cell is what the grid shows of it.

# Two rules

The two are taken from a cell by different rules. A formula reads the
display, and the content where the display is missing or empty; the grid
shows the display of a formula and the content of any other cell. They come
to the same because a cell has content or a formula and never both
(`Cell.Split`): where the display of a formula is missing or empty, there is
no content that could be read in its place.

# What keeps it

Content that is typed makes a cell of one kind or the other; passes and
refreshes write nothing but displays, and none to a cell without a formula,
since without one it evaluates to nothing and shows nothing already. So the
split is kept by whatever is done to a store that was loaded from texts
(`Split.after`, `Split.afterAll`), also where the graph that a refresh goes
by is out of date. A refresh by such a graph may go through cells that hold
no formula any more, which is why the rule speaks of displays that are not
there.

# The edited cell

After an edit, a formula shows something, if only the empty text
(`Edited.exists_display`).
-/
import Mathlib
import Spreadsheet.Proofs.Recalculation.Edit
import Spreadsheet.Proofs.Recalculation.Pass

namespace Spreadsheet

-- ====================================================== content or formula

namespace Cell

/-- A cell has content, or a formula, as it was typed. Only a formula
has a display. -/
inductive Split (cell : Cell) : Prop
  | content (formula : cell.formula = none) (display : cell.display = none)
      (value : cell.value.head? ≠ some (.char '='))
  | formula {raw : Text} (formula : cell.formula = some (.text raw))
      (head : raw.head? = some (.char '=')) (value : cell.value = [])

theorem split_ofInput (raw : Text) : (ofInput raw).Split := by
  unfold ofInput
  split
  · next hhead => exact .formula rfl hhead rfl
  · next hhead => exact .content rfl rfl hhead

theorem Split.shown_eq_rendered {cell : Cell} (h : cell.Split) : cell.shown = cell.rendered := by
  cases h with
  | content formula display value =>
      unfold shown rendered hasFormula
      rw [formula, display]
      rfl
  | formula formula head value =>
      next raw =>
      -- a text with a first character is not empty, so the cell does hold a formula
      have hvoid : (Content.text raw).isVoid = false := by
        cases raw with
        | nil => cases head
        | cons c cs => rfl
      unfold shown rendered hasFormula
      rw [formula, value]
      simp [hvoid]

/-- A cell that is renewed stays of its kind: without a formula it is
given no display, and with one it may be given any. -/
theorem Split.renewed {cell : Cell} (h : cell.Split) (settings : Settings) (store : Store) :
    (cell.renewed settings store).Split := by
  cases h with
  | content formula display value =>
      refine .content formula ?_ value
      unfold Cell.renewed
      rw [formula]
      rfl
  | formula formula head value => exact .formula formula head value

end Cell

namespace Store

variable {settings : Settings} {store result : Store} {key raw : Text} {graph : Graph}
  {order : List Text}

/-- A store of texts in which every cell has content or a formula. -/
structure Split (store : Store) : Prop where
  textual : store.Textual
  cells : ∀ key cell, store.find? key = some cell → cell.Split

theorem split_empty : Split empty where
  textual := textual_empty
  cells := nofun

theorem Split.put (h : store.Split) {cell : Cell} (htextual : cell.Textual) (hcell : cell.Split) :
    (store.put key cell).Split where
  textual := h.textual.put htextual
  cells k c hc := by
    rw [find?_put] at hc
    split at hc
    · cases hc
      exact hcell
    · exact h.cells k c hc

theorem Split.typed (h : store.Split) (key raw : Text) : (store.typed key raw).Split :=
  h.put (Cell.textual_ofInput raw) (Cell.split_ofInput raw)

theorem Split.renew (h : store.Split) (settings : Settings) (key : Text) :
    (store.renew settings key).Split := by
  unfold Store.renew
  split
  · next cell hcell =>
    exact h.put ((h.textual key cell hcell).renewed h.textual settings)
      ((h.cells key cell hcell).renewed settings store)
  · exact h

theorem Split.renewAll (h : store.Split) (settings : Settings) (keys : List Text) :
    (store.renewAll settings keys).Split := by
  induction keys generalizing store with
  | nil => exact h
  | cons key keys ih => exact ih (h.renew settings key)

theorem Split.pass (h : store.Split) (settings : Settings) : (store.pass settings).Split where
  textual := h.textual.pass settings
  cells key cell hcell := by
    by_cases hformula : store.hasFormula key = true
    · obtain ⟨old, hold, hf⟩ := hasFormula_iff.mp hformula
      rw [find?_pass h.textual hold hf] at hcell
      cases hcell
      exact (h.cells key old hold).renewed settings store
    · rw [find?_pass_of_not_formula hformula] at hcell
      exact h.cells key cell hcell

theorem Split.shown_eq_rendered (h : store.Split) {cell : Cell}
    (hcell : store.find? key = some cell) : store.shown key = cell.rendered := by
  unfold shown
  rw [hcell]
  exact (h.cells key cell hcell).shown_eq_rendered

/-- Cells that were sent as texts are loaded, and each has content or a
formula. -/
theorem split_ofJson (texts : List (Text × Text)) :
    ∃ store, ofJson (.object (texts.map fun (key, raw) => (key, .string raw))) = .ok store ∧
      store.Split := by
  have hload : ofJson (.object (texts.map fun (key, raw) => (key, .string raw)))
      = texts.foldlM (fun store (key, raw) => .ok (store.typed key raw)) empty := by
    show List.foldlM _ _ _ = _
    rw [List.foldlM_map]
    rfl
  have htyped : ∃ store : Store,
      (texts.foldlM (fun store (key, raw) => .ok (store.typed key raw)) empty : Except Fault Store)
        = .ok store := foldlM_ok (fun _ _ _ => ⟨_, rfl⟩) empty
  obtain ⟨store, hstore⟩ := htyped
  refine ⟨store, hload.trans hstore, ?_⟩
  refine foldlM_keeps (p := Split) (fun before text after hstep hbefore => ?_) hstore split_empty
  cases hstep
  exact hbefore.typed text.1 text.2

-- ====================================================== what is done to a store

/-- What may be done to a store: typing into a cell, a full pass, or a
refresh after an edit, by the graph of the store or by one that was
built before. -/
inductive Action where
  | edit (settings : Settings) (key raw : Text)
  | pass (settings : Settings)
  | refresh (settings : Settings) (prebuilt : Option Graph) (edited : Text)

/-- The store after an action, with what it changed written back. -/
def perform (store : Store) : Action → Except Fault Store
  | .edit settings key raw => store.edit settings key raw
  | .pass settings => .ok (store.write (store.recalculate settings))
  | .refresh settings prebuilt edited => do
    let graph ← store.graphOr prebuilt
    return store.write (← store.recalculateDependents settings graph edited)

/-- The store after an action; one that fails leaves the store as it
was. -/
def after (store : Store) (action : Action) : Store :=
  match store.perform action with
  | .ok result => result
  | .error _ => store

/-- The store after some actions, one after another. -/
def afterAll (store : Store) (actions : List Action) : Store :=
  actions.foldl after store

theorem after_of_perform {action : Action} (h : store.perform action = .ok result) :
    store.after action = result := by
  unfold after
  rw [h]

theorem Split.perform (h : store.Split) {action : Action}
    (hperform : store.perform action = .ok result) : result.Split := by
  cases action with
  | edit settings key raw =>
      obtain ⟨graph, order, hedited⟩ := edit_eq_ok h.textual hperform
      rw [hedited.renewed]
      exact (h.typed key raw).renewAll settings order
  | pass settings =>
      cases hperform
      exact h.pass settings
  | refresh settings prebuilt edited =>
      obtain ⟨graph, -, hperform⟩ := bind_eq_ok.mp hperform
      obtain ⟨changes, hchanges, hperform⟩ := bind_eq_ok.mp hperform
      cases hperform
      obtain ⟨-, order, -, hrefresh⟩ := recalculateDependents_eq_ok.mp hchanges
      rw [write_refresh h.textual hrefresh]
      exact h.renewAll settings order

/-- An action keeps content and formulas apart, if it succeeds, and
leaves the store alone otherwise. -/
theorem Split.after (h : store.Split) (action : Action) : (store.after action).Split := by
  unfold Store.after
  split
  · next hperform => exact h.perform hperform
  · exact h

theorem Split.afterAll (h : store.Split) (actions : List Action) :
    (store.afterAll actions).Split := by
  induction actions generalizing store with
  | nil => exact h
  | cons action actions ih => exact ih (h.after action)

-- ====================================================== the edited cell

/-- A formula that was renewed shows something, be it the code of a
failure. -/
theorem display_renew_ne_none {cell : Cell}
    (hcell : (store.renew settings key).find? key = some cell) (hformula : cell.hasFormula = true) :
    cell.display ≠ none := by
  cases hold : store.find? key with
  | none =>
      unfold renew at hcell
      simp only [hold] at hcell
      cases hcell
  | some old =>
      rw [renew_of_find? hold, find?_put_self] at hcell
      cases hcell
      have hold : old.hasFormula = true := hformula
      unfold Cell.hasFormula at hold
      unfold Cell.renewed
      cases hcontent : old.formula with
      | none =>
          rw [hcontent] at hold
          cases hold
      | some content => cases content <;> exact Option.some_ne_none _

/-- After an edit the edited cell is there, and if it holds a formula it
shows something. -/
theorem Edited.exists_display (h : Edited settings store key raw graph order result) :
    ∃ cell, result.find? (Text.upper key) = some cell ∧
      (cell.hasFormula = true → cell.display ≠ none) := by
  have htyped : (store.typed key raw).find? (Text.upper key) = some (Cell.ofInput raw) :=
    find?_put_self ..
  obtain ⟨cell, hcell, -⟩ := find?_of_input? ((inputs_eq_iff.mp h.inputs).2 _).symm htyped
  refine ⟨cell, hcell, fun hformula => ?_⟩
  have hmem : Text.upper key ∈ order := by
    refine (mem_affected h.affected).mpr (.inr ⟨rfl, ?_⟩)
    rw [← hasFormula_eq_of_input? ((inputs_eq_iff.mp h.inputs).2 _)]
    exact hasFormula_iff.mpr ⟨cell, hcell, hformula⟩
  -- the cell is renewed once, and stays as it is then
  obtain ⟨before, after, hsplit⟩ := List.append_of_mem hmem
  have hdistinct : order.Nodup := Graph.nodup_evaluationOrder h.affected
  rw [hsplit] at hdistinct
  have hafter : Text.upper key ∉ after :=
    (List.nodup_cons.mp (List.nodup_append.mp hdistinct).2.1).1
  rw [h.renewed, hsplit, renewAll_append, renewAll_cons, find?_renewAll_of_not_mem hafter] at hcell
  exact display_renew_ne_none hcell hformula

-- ====================================================== runs

/-- In every store that actions lead to from cells that were sent as
texts, each cell has content or a formula, and what formulas read of it
is what the grid shows of it. An edit of such a store that succeeds
leaves the edited cell, if it holds a formula, with a display. -/
theorem shown_eq_rendered_afterAll (texts : List (Text × Text)) (actions : List Action) :
    ∃ loaded, ofJson (.object (texts.map fun (key, raw) => (key, .string raw))) = .ok loaded ∧
      (∀ key cell, (loaded.afterAll actions).find? key = some cell →
        cell.Split ∧ (loaded.afterAll actions).shown key = cell.rendered) ∧
      ∀ settings key raw result, (loaded.afterAll actions).edit settings key raw = .ok result →
        ∃ cell, result.find? (Text.upper key) = some cell ∧
          (cell.hasFormula = true → cell.display ≠ none) := by
  obtain ⟨loaded, hloaded, hsplit⟩ := split_ofJson texts
  have hafter := hsplit.afterAll actions
  refine ⟨loaded, hloaded, fun key cell hcell => ?_, fun settings key raw result hedit => ?_⟩
  · exact ⟨hafter.cells key cell hcell, hafter.shown_eq_rendered hcell⟩
  · obtain ⟨graph, order, hedited⟩ := edit_eq_ok hafter.textual hedit
    exact hedited.exists_display

/-- A formula that shows the empty text, once a pass has filled it in
and an edit has emptied the cell that it reads. -/
theorem shown_eq_rendered_afterAll_emptied :
    let texts : List (Text × Text) := [("a1", "x"), ("b1", "=CONCAT(A1)")]
    let actions : List Action := [.pass { now := default }, .edit { now := default } "a1" []]
    ∃ loaded cell, ofJson (.object (texts.map fun (key, raw) => (key, .string raw))) = .ok loaded ∧
      (loaded.afterAll actions).find? "B1" = some cell ∧ cell.Split ∧
      cell.display = some (.text []) ∧ (loaded.afterAll actions).shown "B1" = cell.rendered := by
  intro texts actions
  obtain ⟨loaded, hloaded, hcells, -⟩ := shown_eq_rendered_afterAll texts actions
  have hshown : ∃ cell, (loaded.afterAll actions).find? "B1" = some cell ∧
      cell.display = some (.text []) := by
    cases hloaded
    let typed := (empty.typed "a1" "x").typed "b1" "=CONCAT(A1)"
    have hrun : ∃ filled emptied, typed.perform (.pass { now := default }) = .ok filled ∧
        filled.perform (.edit { now := default } "a1" []) = .ok emptied ∧
        ∃ cell, emptied.find? "B1" = some cell ∧ cell.display = some (.text []) :=
      ⟨_, _, by cbv, by cbv, _, by cbv, by cbv⟩
    obtain ⟨filled, emptied, hpass, hedit, hcell⟩ := hrun
    show ∃ cell, ((typed.after _).after _).find? "B1" = some cell ∧ _
    rw [after_of_perform hpass, after_of_perform hedit]
    exact hcell
  obtain ⟨cell, hcell, hdisplay⟩ := hshown
  obtain ⟨hsplit, hrendered⟩ := hcells _ cell hcell
  exact ⟨loaded, cell, hloaded, hcell, hsplit, hdisplay, hrendered⟩

end Store

end Spreadsheet
