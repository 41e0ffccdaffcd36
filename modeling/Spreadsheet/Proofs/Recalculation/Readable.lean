/-
Which sheets can be recalculated.

# What may stop it

Nothing about a sheet stops its recalculation but formulas that are no texts
and rows that are too long to be turned into numbers, in the keys of the
sheet or in the references and ranges that its formulas name
(`Recalculable`). A formula that does not split into tokens reads nothing,
and stops nothing either.

# Short rows

Whatever a formula of short rows reads has short rows too, for the cells of
a range lie between its corners; so the sheet is legible. And where a graph
was built and searched, its formulas were texts of short rows
(`legible_iff`): a corner with a long row stops the listing of the range,
and a key with one is met when the nodes are sorted.

# What this closes

A sheet can be recalculated exactly if it is legible and its keys can be
placed (`recalculable_iff`). The last is asked by the grid of the answer,
which places every cell, formula or not.
-/
import Spreadsheet.Grid
import Spreadsheet.Proofs.Recalculation.Pass
import Spreadsheet.Proofs.Recalculation.Success
import Spreadsheet.Proofs.Reference.Rectangle

namespace Spreadsheet

-- ====================================================== ranges

/-- The cells of a range that is read are places that can be named: they
lie between its corners, which were. -/
theorem Range.exists_nameable_of_mem_cells {text : Text} {r : Range}
    (h : parse? text = .ok (some r)) {key : Text} (hkey : key ∈ r.cells) :
    ∃ place : Reference, place.Nameable ∧ key = place.key := by
  unfold parse? at h
  split at h
  · cases h
  · obtain ⟨a, ha, h⟩ := bind_eq_ok.mp h
    obtain ⟨b, hb, h⟩ := bind_eq_ok.mp h
    cases a with
    | none => cases h
    | some a =>
        cases b with
        | none => cases h
        | some b =>
            cases h
            obtain ⟨row, hrow, hkey⟩ := List.mem_flatMap.mp hkey
            obtain ⟨col, hcol, rfl⟩ := List.mem_map.mp hkey
            exact ⟨_, nameable_of_mem_spanning (Reference.nameable_of_parse? ha)
              (Reference.nameable_of_parse? hb) (mem_integers.mp hrow) (mem_integers.mp hcol), rfl⟩

/-- The cells of a range that is read can all be placed. -/
theorem Range.placed_of_mem_cells {text : Text} {r : Range} (h : parse? text = .ok (some r))
    {key : Text} (hkey : key ∈ r.cells) : Placed key := by
  obtain ⟨place, hplace, rfl⟩ := exists_nameable_of_mem_cells h hkey
  exact Reference.placed_key hplace

/-- A range is read when both of its corners have short rows. A text
that is no range is read as well, as none. -/
theorem Range.exists_parse?_iff {text : Text} :
    (∃ r, parse? text = .ok r) ↔ ∀ first second, corners? text = some (first, second) →
      ShortRow (Text.trim first) ∧ ShortRow (Text.trim second) := by
  unfold parse?
  cases hcorners : corners? text with
  | none => exact ⟨fun _ => nofun, fun _ => ⟨none, rfl⟩⟩
  | some corners =>
      obtain ⟨first, second⟩ := corners
      simp only [← placed_iff]
      constructor
      · rintro ⟨r, hr⟩ _ _ ⟨⟩
        obtain ⟨a, ha, hr⟩ := bind_eq_ok.mp hr
        obtain ⟨b, hb, -⟩ := bind_eq_ok.mp hr
        exact ⟨⟨a, ha⟩, ⟨b, hb⟩⟩
      · intro h
        obtain ⟨⟨a, ha⟩, ⟨b, hb⟩⟩ := h first second rfl
        rw [ha, hb]
        cases a with
        | none => exact ⟨none, rfl⟩
        | some a => cases b <;> exact ⟨_, rfl⟩

-- ====================================================== formulas

/-- A token with short rows, if it names cells at all. -/
def Lexeme.Readable : Lexeme → Prop
  | .reference key => ShortRow key
  | .range text => ∀ first second, Range.corners? text = some (first, second) →
      ShortRow (Text.trim first) ∧ ShortRow (Text.trim second)
  | _ => True

/-- A text whose references and ranges have short rows, if it is a
formula that splits into tokens. -/
def Formula.Readable (formula : Text) : Prop :=
  ∀ expression tokens, formula = .char '=' :: expression →
    Lexer.tokens expression = .ok tokens → ∀ token ∈ tokens, token.lexeme.Readable

namespace Formula

/-- The keys of a token are found, and can be placed, exactly when its
rows are short. -/
theorem exists_keysOf_iff {lexeme : Lexeme} :
    (∃ keys, keysOf lexeme = .ok keys ∧ ∀ key ∈ keys, Placed key) ↔ lexeme.Readable := by
  cases lexeme with
  | reference key =>
      constructor
      · rintro ⟨keys, hkeys, hplaced⟩
        cases hkeys
        exact placed_iff.mp (hplaced key (List.mem_singleton_self key))
      · intro h
        refine ⟨[key], rfl, fun k hk => ?_⟩
        rw [List.mem_singleton.mp hk]
        exact placed_iff.mpr h
  | range text =>
      show (∃ keys, Range.expand text = .ok keys ∧ _) ↔ _
      constructor
      · rintro ⟨keys, hkeys, -⟩
        obtain ⟨r, hr, -⟩ := bind_eq_ok.mp hkeys
        exact Range.exists_parse?_iff.mp ⟨r, hr⟩
      · intro h
        obtain ⟨r, hr⟩ := Range.exists_parse?_iff.mpr h
        unfold Range.expand
        rw [hr]
        refine ⟨_, rfl, fun key hkey => ?_⟩
        cases r with
        | none => cases hkey
        | some r => exact Range.placed_of_mem_cells hr hkey
  | _ => exact ⟨fun _ => trivial, fun _ => ⟨[], rfl, nofun⟩⟩

/-- The keys that a text reads are found, and can be placed, exactly
when its rows are short. -/
theorem exists_readsOfText_iff {formula : Text} :
    (∃ keys, readsOfText formula = .ok keys ∧ ∀ key ∈ keys, Placed key) ↔ Readable formula := by
  unfold readsOfText
  split
  · next expression =>
    cases htokens : Lexer.tokens expression with
    | error fault =>
        refine ⟨fun _ => ?_, fun _ => ⟨[], rfl, nofun⟩⟩
        rintro _ tokens ⟨⟩ hok
        rw [htokens] at hok
        cases hok
    | ok tokens =>
        dsimp only
        constructor
        · rintro ⟨keys, hkeys, hplaced⟩ _ _ ⟨⟩ hok token htoken
          rw [htokens] at hok
          cases hok
          obtain ⟨found, hfound, hkeys⟩ := bind_eq_ok.mp hkeys
          cases hkeys
          obtain ⟨some, hsome, hkeys⟩ := exists_ok_of_mapM hfound htoken
          exact exists_keysOf_iff.mp
            ⟨some, hkeys, fun key hkey => hplaced key (List.mem_flatten_of_mem hsome hkey)⟩
        · intro h
          have htoken := fun token hmem =>
            exists_keysOf_iff.mpr (h expression tokens rfl htokens token hmem)
          obtain ⟨found, hfound⟩ := mapM_ok fun token hmem =>
            (htoken token hmem).imp fun _ => And.left
          refine ⟨found.flatten, bind_eq_ok.mpr ⟨found, hfound, rfl⟩, fun key hkey => ?_⟩
          obtain ⟨keys, hkeys, hmem⟩ := List.mem_flatten.mp hkey
          obtain ⟨token, htokenMem, hok⟩ := mem_of_mapM hfound hkeys
          obtain ⟨keys', hok', hplaced⟩ := htoken token htokenMem
          rw [hok] at hok'
          cases hok'
          exact hplaced key hmem
  · next hnot => exact ⟨fun _ _ _ heq => absurd heq (hnot _), fun _ => ⟨[], rfl, nofun⟩⟩

end Formula

/-- The cells that a cell reads are found, and can be placed, exactly
when it holds no formula or a text with short rows. -/
theorem Cell.legible_iff {cell : Cell} :
    cell.Legible ↔ (cell.hasFormula = true →
      ∃ formula, cell.formula = some (.text formula) ∧ Formula.Readable formula) := by
  by_cases hformula : cell.hasFormula = true
  · simp only [hformula, forall_const]
    unfold Legible Cell.reads
    unfold hasFormula at hformula
    cases hcell : cell.formula with
    | none =>
        rw [hcell] at hformula
        cases hformula
    | some content =>
        rw [hcell] at hformula
        cases content with
        | text formula =>
            simp only [Option.some.injEq, Content.text.injEq, exists_eq_left']
            exact Formula.exists_readsOfText_iff
        | other json =>
            refine ⟨?_, nofun⟩
            rintro ⟨keys, hkeys, -⟩
            have hvoid : ¬json.isVoid = true := by simpa [Content.isVoid] using hformula
            have herror : Formula.reads (.other json) = .error (.formulaNotText json) :=
              if_neg hvoid
            cases herror.symm.trans hkeys
  · exact ⟨fun _ h => absurd h hformula, fun _ => ⟨[], reads_eq_nil hformula, nofun⟩⟩

-- ====================================================== sheets

namespace Store

variable {store : Store}

/-- A sheet whose formulas are texts, and whose rows are short wherever
they are named. -/
structure Recalculable (store : Store) : Prop where
  keys : ∀ key ∈ store.entries.names, ShortRow key
  formulas : ∀ key cell, store.find? key = some cell → cell.hasFormula = true →
    ∃ formula, cell.formula = some (.text formula) ∧ Formula.Readable formula

/-- A sheet is legible exactly when its graph can be built and searched
for a cycle. -/
theorem legible_iff : store.Legible ↔
    ∃ graph cycle, Graph.ofStore store = .ok graph ∧ graph.cycle? = .ok cycle := by
  constructor
  · intro h
    obtain ⟨graph, hgraph, hlegible⟩ := h.graph
    obtain ⟨cycle, hcycle⟩ := Graph.cycle?_ok hlegible
    exact ⟨graph, cycle, hgraph, hcycle⟩
  · rintro ⟨graph, cycle, hgraph, hcycle⟩
    obtain ⟨sorted, hsorted, -⟩ := bind_eq_ok.mp hcycle
    have hnode : ∀ key ∈ graph.nodes, Placed key := fun key hkey =>
      placed_of_sortKeys hsorted (Text.mem_sortDistinct.mpr hkey)
    constructor
    · intro key cell hcell
      obtain ⟨keys, hkeys, hreads⟩ := (Graph.holds_of_ofStore hgraph hcell).reads_iff
      exact ⟨keys, hkeys, fun r hr => hnode r (Graph.mem_nodes.mpr (.inr ⟨key, (hreads r).mpr hr⟩))⟩
    · intro key hkey
      exact hnode key (Graph.mem_nodes.mpr (.inl ((Graph.mem_names_ofStore hgraph).mpr hkey)))

/-- A sheet can be laid out exactly when its keys can be placed. Keys
that name no place are placed too, nowhere. -/
theorem exists_grid_iff :
    (∃ grid, Grid.ofStore store = .ok grid) ↔ ∀ key ∈ store.entries.names, Placed key := by
  constructor
  · rintro ⟨grid, hgrid⟩ key hkey
    obtain ⟨placed, hplaced, -⟩ := bind_eq_ok.mp hgrid
    obtain ⟨cells, hcells, -⟩ := bind_eq_ok.mp hplaced
    obtain ⟨entry, hentry, rfl⟩ := List.mem_map.mp hkey
    obtain ⟨_, -, hcell⟩ := exists_ok_of_mapM hcells hentry
    obtain ⟨place, hplace, -⟩ := bind_eq_ok.mp hcell
    exact ⟨place, hplace⟩
  · intro h
    have hcell : ∀ entry ∈ store.entries, ∃ cell,
        (do return (← Reference.parse? entry.1).map (·, entry.2.rendered))
          = (.ok cell : Except Fault (Option (Reference × Content))) := by
      intro entry hentry
      obtain ⟨place, hplace⟩ := h entry.1 (List.mem_map.mpr ⟨entry, hentry, rfl⟩)
      exact ⟨_, bind_eq_ok.mpr ⟨place, hplace, rfl⟩⟩
    obtain ⟨cells, hcells⟩ := mapM_ok hcell
    exact ⟨_, bind_eq_ok.mpr ⟨_, bind_eq_ok.mpr ⟨cells, hcells, rfl⟩, rfl⟩⟩

/-- A sheet can be recalculated exactly if it is legible, for its graph,
and its keys can be placed, for its grid. -/
theorem recalculable_iff : store.Recalculable ↔
    store.Legible ∧ ∀ key ∈ store.entries.names, Placed key := by
  constructor
  · intro h
    have hkeys : ∀ key ∈ store.entries.names, Placed key := fun key hkey =>
      placed_iff.mpr (h.keys key hkey)
    refine ⟨⟨fun key cell hcell => Cell.legible_iff.mpr (h.formulas key cell hcell), ?_⟩, hkeys⟩
    intro key hkey
    obtain ⟨cell, hcell, -⟩ := hasFormula_iff.mp hkey
    exact hkeys key (Entries.mem_names_iff.mpr ⟨cell, hcell⟩)
  · rintro ⟨hlegible, hkeys⟩
    exact ⟨fun key hkey => placed_iff.mp (hkeys key hkey),
      fun key cell hcell => Cell.legible_iff.mp (hlegible.cells key cell hcell)⟩

end Store

end Spreadsheet
