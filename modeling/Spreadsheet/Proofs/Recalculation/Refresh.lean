/-
A refresh: cells evaluated one after another.

# Renewals

A refresh writes only the displays that changed. In a store of texts this
comes to the same as renewing every cell of the list in turn, each against
the store that the ones before it left (`write_refresh`). Renewing is the
simpler notion, as it has no changes to carry along, and most of what is
known of a refresh is proved of renewals.

# Fresh cells

A formula is fresh if it shows what it evaluates to (`Fresh`). A cell that
is renewed once, after all it reads, is fresh at the end (`fresh_renewAll`),
and a cell stays fresh while it and what it reads stay as they are
(`Fresh.congr`). What a formula reads is given by the graph, and an
evaluation looks at nothing else (`evaluate_congr`).

# What renewals keep

Renewals of formulas keep the input of a store and so its graph, its keys,
and that its cells are texts.
-/
import Spreadsheet.Proofs.Dependency.Order
import Spreadsheet.Proofs.Dependency.Reach
import Spreadsheet.Proofs.Eval.ReadSet
import Spreadsheet.Proofs.Eval.Textual

namespace Spreadsheet

-- ====================================================== fresh cells

/-- The cell with what its formula evaluates to in a store as its
display. -/
def Cell.renewed (cell : Cell) (settings : Settings) (store : Store) : Cell :=
  { cell with display := Eval.evaluate (.ofStore store settings) cell.formula }

theorem Cell.Textual.renewed {cell : Cell} {store : Store} (h : cell.Textual)
    (hstore : store.Textual) (settings : Settings) : (cell.renewed settings store).Textual where
  formula := h.formula
  display := Eval.textOrNone_evaluate hstore settings h.formula

namespace Store

variable {settings : Settings} {store s t : Store} {graph : Graph} {key : Text}

/-- A formula shows what it evaluates to; other cells are fresh in any
case. -/
def Fresh (settings : Settings) (store : Store) (key : Text) : Prop :=
  ∀ cell, store.find? key = some cell → cell.hasFormula = true →
    cell.display = Eval.evaluate (.ofStore store settings) cell.formula

/-- In a store of texts, a display counts as unchanged when it is what
the formula evaluates to. -/
theorem Textual.sameDisplay_iff (h : store.Textual) {cell : Cell}
    (hcell : store.find? key = some cell) (settings : Settings) :
    sameDisplay cell.display (Eval.evaluate (.ofStore store settings) cell.formula) = true ↔
      cell.display = Eval.evaluate (.ofStore store settings) cell.formula :=
  sameDisplay_text (h key cell hcell).display
    (Eval.textOrNone_evaluate h settings (h key cell hcell).formula)

theorem renewed_eq_self {cell : Cell}
    (h : cell.display = Eval.evaluate (.ofStore store settings) cell.formula) :
    cell.renewed settings store = cell := by
  unfold Cell.renewed
  rw [← h]

/-- A formula of a store evaluates alike in all stores that show the
same under the keys it reads. -/
theorem evaluate_congr (hgraph : Graph.ofStore store = .ok graph) {cell : Cell}
    (hcell : store.find? key = some cell) (settings : Settings)
    (hagree : ∀ r, graph.Reads key r → s.shown r = t.shown r) :
    Eval.evaluate (.ofStore s settings) cell.formula
      = Eval.evaluate (.ofStore t settings) cell.formula := by
  obtain ⟨keys, hkeys, hreads⟩ := (Graph.holds_of_ofStore hgraph hcell).reads_iff
  unfold Cell.reads at hkeys
  cases hformula : cell.formula with
  | none => rfl
  | some formula =>
      cases formula with
      | other json => rfl
      | text formula =>
          rw [hformula] at hkeys
          have hsettings : (Environment.ofStore s settings).settings
              = (Environment.ofStore t settings).settings := rfl
          refine congrArg some (Eval.evaluateText_congr hsettings hkeys fun r hr => ?_)
          exact congrArg Except.ok (hagree r ((hreads r).mpr hr))

/-- A fresh cell is fresh in every store that has the same cell and
shows the same under the keys it reads. -/
theorem Fresh.congr (h : Fresh settings s key) (hgraph : Graph.ofStore t = .ok graph)
    (hsame : t.find? key = s.find? key)
    (hagree : ∀ r, graph.Reads key r → s.shown r = t.shown r) : Fresh settings t key := by
  intro cell hcell hformula
  have hold := h cell (hsame ▸ hcell) hformula
  rw [hold]
  exact evaluate_congr hgraph hcell settings hagree

-- ====================================================== renewals

/-- The store with a cell renewed. -/
def renew (settings : Settings) (store : Store) (key : Text) : Store :=
  match store.find? key with
  | some cell => store.put key (cell.renewed settings store)
  | none => store

/-- The store after some cells were renewed one after another. -/
def renewAll (settings : Settings) (store : Store) (keys : List Text) : Store :=
  keys.foldl (renew settings) store

theorem renew_of_find? {cell : Cell} (h : store.find? key = some cell) :
    store.renew settings key = store.put key (cell.renewed settings store) := by
  unfold renew
  rw [h]

theorem find?_renew_of_ne {k : Text} (h : k ≠ key) :
    (store.renew settings key).find? k = store.find? k := by
  unfold renew
  split
  · exact find?_put_of_ne h _
  · rfl

theorem names_renew (settings : Settings) (store : Store) (key : Text) :
    (store.renew settings key).entries.names = store.entries.names := by
  unfold renew
  split
  · next hcell => exact names_put_of_find? hcell _
  · rfl

theorem Textual.renew (h : store.Textual) (settings : Settings) (key : Text) :
    (store.renew settings key).Textual := by
  unfold Store.renew
  split
  · next cell hcell => exact h.put ((h key cell hcell).renewed h settings)
  · exact h

/-- Renewing a formula keeps the input of the store, for the display of
a formula is no part of it. -/
theorem inputs_renew (h : store.hasFormula key = true) (settings : Settings) :
    (store.renew settings key).inputs = store.inputs := by
  refine inputs_eq_iff.mpr ⟨names_renew settings store key, fun k => ?_⟩
  obtain ⟨cell, hcell, hformula⟩ := hasFormula_iff.mp h
  unfold input?
  by_cases hk : k = key
  · rw [hk, renew_of_find? hcell, find?_put_self, hcell]
    exact congrArg some (Cell.input_setDisplay hformula _)
  · rw [find?_renew_of_ne hk]

theorem renewAll_cons (settings : Settings) (store : Store) (key : Text) (keys : List Text) :
    store.renewAll settings (key :: keys) = (store.renew settings key).renewAll settings keys := rfl

theorem renewAll_append (settings : Settings) (store : Store) (keys keys' : List Text) :
    store.renewAll settings (keys ++ keys')
      = (store.renewAll settings keys).renewAll settings keys' :=
  List.foldl_append

/-- A cell that is not renewed stays as it is. -/
theorem find?_renewAll_of_not_mem {keys : List Text} {k : Text} (h : k ∉ keys) :
    (store.renewAll settings keys).find? k = store.find? k := by
  induction keys generalizing store with
  | nil => rfl
  | cons key keys ih =>
      obtain ⟨hne, hkeys⟩ := not_or.mp (fun hmem => h (List.mem_cons.mpr hmem))
      rw [renewAll_cons, ih hkeys, find?_renew_of_ne hne]

theorem Textual.renewAll (h : store.Textual) (settings : Settings) (keys : List Text) :
    (store.renewAll settings keys).Textual := by
  induction keys generalizing store with
  | nil => exact h
  | cons key keys ih => exact ih (h.renew settings key)

theorem inputs_renewAll {keys : List Text} (h : ∀ key ∈ keys, store.hasFormula key = true)
    (settings : Settings) : (store.renewAll settings keys).inputs = store.inputs := by
  induction keys generalizing store with
  | nil => rfl
  | cons key keys ih =>
      have hrenew := inputs_renew (h key (List.mem_cons_self ..)) settings
      rw [renewAll_cons, ih ?_, hrenew]
      intro k hk
      rw [hasFormula_eq_of_input? ((inputs_eq_iff.mp hrenew).2 k)]
      exact h k (List.mem_cons_of_mem _ hk)

/-- A formula that is renewed after all it reads, and not again, is
fresh at the end: nothing that it reads changes after it was renewed. -/
theorem fresh_renewAll (hgraph : Graph.ofStore store = .ok graph) {before after : List Text}
    (hformulas : ∀ k ∈ before ++ key :: after, store.hasFormula k = true) (hafter : key ∉ after)
    (hreads : ∀ r, graph.Reads key r → r ∉ key :: after) :
    Fresh settings (store.renewAll settings (before ++ key :: after)) key := by
  have hbefore := inputs_renewAll
    (fun k hk => hformulas k (List.mem_append_left _ hk)) settings
  rw [renewAll_append, renewAll_cons]
  generalize store.renewAll settings before = mid at hbefore
  have hmid : Graph.ofStore mid = .ok graph := (Graph.ofStore_congr hbefore).trans hgraph
  intro cell hcell _
  rw [find?_renewAll_of_not_mem hafter] at hcell
  cases hfind : mid.find? key with
  | none =>
      have hnone : mid.renew settings key = mid := by
        unfold renew
        rw [hfind]
      rw [hnone, hfind] at hcell
      cases hcell
  | some old =>
      rw [renew_of_find? hfind, find?_put_self] at hcell
      cases hcell
      refine evaluate_congr hmid hfind settings fun r hr => shown_congr ?_
      obtain ⟨hne, hr⟩ := not_or.mp (fun hmem => hreads r hr (List.mem_cons.mpr hmem))
      rw [find?_renewAll_of_not_mem hr, find?_renew_of_ne hne]

-- ====================================================== refreshes

/-- Writing what a refresh changed renews the cells of the list. A
refresh leaves out what shows the same already, and for texts writing
the same again makes no difference. -/
theorem write_refresh (htextual : store.Textual) {keys : List Text} {changes : Changes}
    (h : store.refresh settings keys = .ok changes) :
    store.write changes = store.renewAll settings keys := by
  induction keys generalizing store changes with
  | nil =>
      cases h
      rfl
  | cons key keys ih =>
      rw [refresh] at h
      cases hcell : store.find? key with
      | none =>
          rw [hcell] at h
          cases h
      | some cell =>
          simp only [hcell] at h
          rw [renewAll_cons, renew_of_find? hcell]
          split at h
          · next hsame =>
            -- the cell shows the same as before, and putting it changes nothing
            have hdisplay := (htextual.sameDisplay_iff hcell settings).mp hsame
            rw [renewed_eq_self hdisplay, put_eq_self hcell]
            exact ih htextual h
          · obtain ⟨others, hothers, h⟩ := bind_eq_ok.mp h
            cases h
            have hput : store.setDisplay key (cell.renewed settings store).display
                = store.put key (cell.renewed settings store) := by
              unfold setDisplay
              rw [hcell]
              rfl
            show (store.setDisplay key (cell.renewed settings store).display).write others = _
            rw [hput]
            exact ih (htextual.put ((htextual key cell hcell).renewed htextual settings)) hothers

end Store

end Spreadsheet
