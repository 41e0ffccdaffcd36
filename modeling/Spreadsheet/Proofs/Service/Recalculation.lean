/-
When a sheet that is posted gets recalculated.

# Two stages

The form and the loader of the cells decide less here than they do for a
single evaluation. They let in every sheet of texts and objects, but the
stages behind them read the formulas as texts and the rows as numbers: a
formula that is another JSON value, or a row with too many figures, has the
whole request refused. Nothing else has (`recalculate_answers`): neither a
cycle nor a failing formula does, for these are answered.

# Which sheets

The condition on the sheet is `Recalculable`, and it speaks of the store
that the cells make: keys in upper case, and of two spellings of one key the
later. With an edited cell the affected cells are evaluated, and without one
all formulas are; both find every cell they need (`recalculated_ok`).

# The body

The limit on the size of a body holds here as for every other endpoint, and
it is the first thing that is looked at.
-/
import Spreadsheet.Proofs.Recalculation.Readable
import Spreadsheet.Proofs.Service.Request

namespace Spreadsheet.Service

variable {configuration : Configuration} {body : String} {fields : Entries Json}
  {edited : Option Text} {store : Store}

/-- On a legible sheet the order and the changes are found, of an edited
cell or of all. -/
theorem recalculated_ok (h : store.Legible) (settings : Settings) {graph : Graph}
    (hgraph : Graph.ofStore store = .ok graph) (edited : Option Text) :
    ∃ found, recalculated store settings graph edited = .ok found := by
  cases edited with
  | some key =>
      obtain ⟨graph', order, changes, hgraph', horder, -, hchanges⟩ :=
        h.refresh_affected_ok settings key
      rw [hgraph] at hgraph'
      cases hgraph'
      exact ⟨_, bind_eq_ok.mpr ⟨order, horder, bind_eq_ok.mpr ⟨changes, hchanges, rfl⟩⟩⟩
  | none =>
      have hplaced : ∀ key ∈ Entries.names (store.entries.filter fun entry => entry.2.hasFormula),
          Placed key := by
        intro key hkey
        obtain ⟨entry, hentry, rfl⟩ := List.mem_map.mp hkey
        obtain ⟨hmem, hformula⟩ := List.mem_filter.mp hentry
        exact h.keys _ (Store.hasFormula_iff.mpr ⟨entry.2, Store.mem_entries.mp hmem, hformula⟩)
      obtain ⟨sorted, hsorted⟩ := sortKeys_ok hplaced
      exact ⟨_, bind_eq_ok.mpr ⟨sorted, hsorted, rfl⟩⟩

/-- A recalculation has a result exactly when its form is accepted, its
cells make a store, and the store can be recalculated; the result says
that there was success. -/
theorem exists_recalculate_iff :
    (∃ json, recalculate configuration fields = .ok json) ↔
      ∃ edited store, recalculateForm fields = .ok edited ∧
        Store.ofJson (givenCells fields) = .ok store ∧ store.Recalculable := by
  unfold recalculate
  constructor
  · rintro ⟨json, h⟩
    obtain ⟨edited, hedited, h⟩ := bind_eq_ok.mp h
    obtain ⟨store, hstore, h⟩ := bind_eq_ok.mp h
    obtain ⟨graph, hgraph, h⟩ := bind_eq_ok.mp (mapError_eq_ok.mp h)
    obtain ⟨cycle, hcycle, h⟩ := bind_eq_ok.mp h
    obtain ⟨⟨order, changes⟩, -, h⟩ := bind_eq_ok.mp h
    obtain ⟨grid, hgrid, -⟩ := bind_eq_ok.mp h
    have hkeys := Store.exists_grid_iff.mp ⟨grid, hgrid⟩
    rw [Store.names_write] at hkeys
    exact ⟨edited, store, hedited, mapError_eq_ok.mp hstore,
      Store.recalculable_iff.mpr ⟨Store.legible_iff.mpr ⟨graph, cycle, hgraph, hcycle⟩, hkeys⟩⟩
  · rintro ⟨edited, store, hedited, hstore, hrecalculable⟩
    obtain ⟨hlegible, hkeys⟩ := Store.recalculable_iff.mp hrecalculable
    obtain ⟨graph, cycle, hgraph, hcycle⟩ := Store.legible_iff.mp hlegible
    obtain ⟨⟨order, changes⟩, hfound⟩ :=
      recalculated_ok hlegible configuration.settings hgraph edited
    rw [← Store.names_write store changes] at hkeys
    obtain ⟨grid, hgrid⟩ := Store.exists_grid_iff.mpr hkeys
    refine ⟨_, bind_eq_ok.mpr ⟨edited, hedited, bind_eq_ok.mpr ⟨store, mapError_eq_ok.mpr hstore,
      mapError_eq_ok.mpr (bind_eq_ok.mpr ⟨graph, hgraph, bind_eq_ok.mpr ⟨cycle, hcycle,
        bind_eq_ok.mpr ⟨(order, changes), hfound, bind_eq_ok.mpr ⟨grid, hgrid, rfl⟩⟩⟩⟩)⟩⟩⟩

theorem recalculate_success {json : Json} (h : recalculate configuration fields = .ok json) :
    json.get "success" = .bool true := by
  obtain ⟨_, -, h⟩ := bind_eq_ok.mp h
  obtain ⟨_, -, h⟩ := bind_eq_ok.mp h
  obtain ⟨_, -, h⟩ := bind_eq_ok.mp (mapError_eq_ok.mp h)
  obtain ⟨_, -, h⟩ := bind_eq_ok.mp h
  obtain ⟨_, -, h⟩ := bind_eq_ok.mp h
  obtain ⟨_, -, h⟩ := bind_eq_ok.mp h
  cases h
  rfl

/-- A posted recalculation is answered with status 200 and success, or
with status 400 and without. It succeeds exactly when the body is not
too large and is a JSON object or empty, the edited cell is none or
names a cell, the cells make a store, every formula of the store is a
text, and no row is too long, neither in a key of the store nor in a
reference or a range that a formula names. -/
theorem recalculate_answers (configuration : Configuration) (body : String) :
    (∃ json, answer configuration "POST" "/recalculate/" body = ⟨200, some json⟩ ∧
        json.get "success" = .bool true ∨
      answer configuration "POST" "/recalculate/" body = ⟨400, some json⟩ ∧
        json.get "success" = .bool false) ∧
    ((answer configuration "POST" "/recalculate/" body).status = 200 ↔
      ∃ fields edited store, Carries body fields ∧ recalculateForm fields = .ok edited ∧
        Store.ofJson (givenCells fields) = .ok store ∧ store.Recalculable) := by
  have hrun : endpoint? "/recalculate/" = some ⟨recalculate, true⟩ := rfl
  obtain ⟨hcases, hstatus⟩ := answer_posted_status hrun rfl fun _ _ => recalculate_success
  refine ⟨hcases, hstatus.trans ?_⟩
  simp only [exists_recalculate_iff, exists_and_left]

/-- A number in the place of a formula passes the form and the loader,
and has the whole sheet refused. -/
theorem recalculate_refuses_number :
    (∃ fields edited store,
      Carries "\x7b\"edited_cell\": \"B1\", \"cells\": \x7b\"A1\": \x7b\"formula\": 5\x7d\x7d\x7d"
        fields ∧ recalculateForm fields = .ok (some edited) ∧
      Store.ofJson (givenCells fields) = .ok store) ∧
    (answer ⟨{ now := default }, 20⟩ "POST" "/recalculate/"
      "\x7b\"edited_cell\": \"B1\", \"cells\": \x7b\"A1\": \x7b\"formula\": 5\x7d\x7d\x7d").status
      = 400 := by
  have hloads : (do
      let fields ← payload
        "\x7b\"edited_cell\": \"B1\", \"cells\": \x7b\"A1\": \x7b\"formula\": 5\x7d\x7d\x7d"
      let edited ← recalculateForm fields
      let _ ← cellsOf fields
      return edited).toOption = some (some (Text.ofString "B1")) := by decide +kernel
  refine ⟨?_, by decide +kernel⟩
  obtain ⟨fields, hfields, h⟩ := bind_eq_ok.mp (toOption_eq_some.mp hloads)
  obtain ⟨edited, hedited, h⟩ := bind_eq_ok.mp h
  obtain ⟨store, hstore, h⟩ := bind_eq_ok.mp h
  cases h
  exact ⟨fields, "B1", store, payload_eq_ok.mp hfields, hedited, mapError_eq_ok.mp hstore⟩

end Spreadsheet.Service
