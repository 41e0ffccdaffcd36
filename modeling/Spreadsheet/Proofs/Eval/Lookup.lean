/-
What a lookup finds.

# The exact search

The exact search takes the first row whose first cell shows what is sought
(`exactRow_eq`). The rows are gone through from top to bottom, so this is
the least row of that kind, and a lookup shows the wanted column of it, or
fails if there is none (`exact_lookup`). Both are said by the set of rows
that are hit (`hits`), without a search.

# Coordinates and indices

The search goes by coordinates. It can as well go by indices in the list of
the keys of the table: there are as many rows as the number of columns goes
into the length of the list, and a row starts at a multiple of that number.
Both go through the same cells (`lookupByIndex_eq`). The list is laid out row
by row, so the division leaves no rest, every index is inside, and none of
the products leads astray.
-/
import Mathlib.Data.Set.Basic
import Mathlib.Order.Bounds.Basic
import Spreadsheet.Eval.Evaluator
import Spreadsheet.Proofs.Outcome
import Spreadsheet.Proofs.Reference.Rectangle

namespace Spreadsheet.Eval

variable {env : Environment} {store : Store} {settings : Settings} {table : Range}
  {sought : Content} {name : Text} {args args' : List Expr} {column : Int} {approximate : Bool}

-- ====================================================== arguments

/-- The parts that every lookup has: what is sought, the table with its
name, and a column of the table, counted from one. -/
structure Sought (env : Environment) (wanted index : Expr) (sought : Content) (name : Text)
    (table : Range) (column : Int) : Prop where
  wanted_eq : text env wanted = .ok sought
  table_eq : Range.parse? name = .ok (some table)
  index_eq : ∃ x, number env index = .ok x ∧ x.truncate? = some column
  column_mem : 1 ≤ column ∧ column ≤ table.cols

/-- The arguments of a lookup and what they come to. The search is exact
unless there is one argument more, and that is not zero. -/
inductive Seeks (env : Environment) (sought : Content) (name : Text) (table : Range)
    (column : Int) : List Expr → Bool → Prop where
  | exact {wanted index : Expr} (parts : Sought env wanted index sought name table column) :
    Seeks env sought name table column [wanted, .range name, index] false
  | chosen {wanted index mode : Expr} {x : Binary64}
    (parts : Sought env wanted index sought name table column) (hmode : number env mode = .ok x) :
    Seeks env sought name table column [wanted, .range name, index, mode] (!x.isZero)

theorem Seeks.table_eq (h : Seeks env sought name table column args approximate) :
    Range.parse? name = .ok (some table) := by
  cases h with
  | exact parts => exact parts.table_eq
  | chosen parts => exact parts.table_eq

theorem Seeks.column_mem (h : Seeks env sought name table column args approximate) :
    1 ≤ column ∧ column ≤ table.cols := by
  cases h with
  | exact parts => exact parts.column_mem
  | chosen parts => exact parts.column_mem

theorem lookupTable_range (h : Range.parse? name = .ok (some table)) :
    lookupTable (.range name) = .ok table := by
  rw [lookupTable, h]
  rfl

/-- A column of the table is accepted, and counted from zero from then
on. -/
theorem lookupColumn_eq {x : Binary64} (hx : x.truncate? = some column)
    (hcolumn : 1 ≤ column ∧ column ≤ table.cols) :
    lookupColumn table (some x) = .ok (column - 1) := by
  have hnan : x.isNan = false := by
    cases x with
    | nan => cases hx
    | infinite | finite => rfl
  have hinside : ¬ (column < 1 ∨ table.cols < column) := by omega
  simp [lookupColumn, hnan, hx, hinside]

/-- A lookup in arguments that have their values. -/
theorem call_lookup (h : Seeks env sought name table column args approximate) :
    call env .lookup args = lookup env table sought (column - 1) approximate := by
  cases h with
  | exact parts =>
      obtain ⟨x, hx, htruncate⟩ := parts.index_eq
      rw [call, parts.wanted_eq, ok_bind, lookupTable_range parts.table_eq, ok_bind, hx, orMissing,
        ok_bind, lookupColumn_eq htruncate parts.column_mem]
      rfl
  | chosen parts hmode =>
      obtain ⟨x, hx, htruncate⟩ := parts.index_eq
      rw [call, parts.wanted_eq, ok_bind, lookupTable_range parts.table_eq, ok_bind, hx, orMissing,
        ok_bind, lookupColumn_eq htruncate parts.column_mem, ok_bind, hmode]
      rfl

-- ====================================================== the exact search

/-- Does the first cell of a row show what is sought? -/
def showsAt (store : Store) (table : Range) (sought : Content) (row : Int) : Bool :=
  (store.shown (Reference.key ⟨table.left, row⟩)).same sought

theorem tableCell_ofStore (row col : Int) :
    tableCell (.ofStore store settings) table row col
      = .ok (store.shown (Reference.key ⟨table.left + col, row⟩)) := rfl

/-- The exact search takes the first row that shows what is sought.
Texts are told apart by case here, unlike in the approximate search. -/
theorem exactRow_eq (rows : List Int) :
    exactRow (.ofStore store settings) table sought rows
      = .ok (rows.find? (showsAt store table sought)) := by
  induction rows with
  | nil => rfl
  | cons row rows ih =>
      rw [exactRow, tableCell_ofStore, ok_bind, Int.add_zero, ih, List.find?_cons]
      unfold showsAt
      cases hsame : (store.shown (Reference.key ⟨table.left, row⟩)).same sought with
      | true => rfl
      | false => rfl

/-- The first hit among rows in order is the least one. No row above it
was a hit. -/
theorem isLeast_of_find? {p : Int → Bool} {rows : List Int} {row : Int}
    (horder : rows.Pairwise (· < ·)) (h : rows.find? p = some row) :
    IsLeast {r | r ∈ rows ∧ p r = true} row := by
  obtain ⟨hp, before, after, rfl, hbefore⟩ := List.find?_eq_some_iff_append.mp h
  refine ⟨⟨by simp, hp⟩, fun r hr => ?_⟩
  obtain ⟨hmem, hr⟩ := hr
  rcases List.mem_append.mp hmem with hmem | hmem
  · exact absurd hr (by simpa using hbefore r hmem)
  · rcases List.mem_cons.mp hmem with rfl | hmem
    · exact Int.le_refl _
    · exact Int.le_of_lt (List.rel_of_pairwise_cons (List.pairwise_append.mp horder).2.1 hmem)

/-- The rows of a table whose first cell shows what is sought. -/
def hits (store : Store) (table : Range) (sought : Content) : Set Int :=
  {row | table.top ≤ row ∧ row ≤ table.bottom ∧ showsAt store table sought row = true}

/-- The exact search finds the least row whose first cell shows what is
sought, if there is one. -/
theorem exactRow_spec (store : Store) (settings : Settings) (table : Range) (sought : Content) :
    (∃ row, exactRow (.ofStore store settings) table sought
          (Range.integers table.top table.bottom) = .ok (some row) ∧
        IsLeast (hits store table sought) row) ∨
      (exactRow (.ofStore store settings) table sought
          (Range.integers table.top table.bottom) = .ok none ∧ hits store table sought = ∅) := by
  have hmem : hits store table sought = {r | r ∈ Range.integers table.top table.bottom ∧
      showsAt store table sought r = true} := by
    ext row
    simp only [hits, Set.mem_ofPred_eq, Range.mem_integers, and_assoc]
  rw [exactRow_eq, hmem]
  cases hfind : (Range.integers table.top table.bottom).find? (showsAt store table sought) with
  | some row => exact .inl ⟨row, rfl, isLeast_of_find? Range.pairwise_integers hfind⟩
  | none =>
      refine .inr ⟨rfl, Set.eq_empty_iff_forall_notMem.mpr fun row hrow => ?_⟩
      exact List.find?_eq_none.mp hfind row hrow.1 hrow.2

-- ====================================================== the search by indices

/-- What is shown under the key at an index of a list; nothing if the
index is outside. -/
def shownAt (store : Store) (keys : List Text) (index : Nat) : Option Content :=
  keys[index]?.map store.shown

/-- The first of some rows whose first cell shows what is sought, in a
list of keys with `cols` of them in a row. There is no answer if an
index on the way is outside the list. -/
def rowByIndex (store : Store) (keys : List Text) (cols : Nat) (sought : Content) :
    List Nat → Option (Option Nat)
  | [] => some none
  | row :: rows => do
    if (← shownAt store keys (row * cols)).same sought then return some row
    else rowByIndex store keys cols sought rows

/-- An exact lookup in a list of keys, which has as many rows as `cols`
goes into its length. There is no answer if an index on the way is
outside the list. -/
def lookupByIndex (store : Store) (keys : List Text) (cols column : Nat) (sought : Content) :
    Option (Except Fault Content) := do
  match ← rowByIndex store keys cols sought (List.range (keys.length / cols)) with
  | none => return fail (.notFound sought)
  | some row => return .ok (← shownAt store keys (row * cols + column - 1))

/-- The index of a cell in the list of keys, from its row and its
column. -/
theorem shownAt_eq (store : Store) {keys : List Text} (h : table.RowMajor keys) {i j : Nat}
    (hi : (i : Int) < table.rows) (hj : (j : Int) < table.cols) :
    shownAt store keys (i * table.cols.toNat + j)
      = some (store.shown (Reference.key ⟨table.left + j, table.top + i⟩)) := by
  rw [shownAt, h.key_at i j hi hj, Option.map_some]

/-- Row by row, the search by indices goes along with the search by
coordinates. -/
theorem rowByIndex_eq (store : Store) (settings : Settings) {keys : List Text}
    (h : table.RowMajor keys) (sought : Content) {rows : List Nat}
    (hrows : ∀ i ∈ rows, (i : Int) < table.rows) :
    ∃ found, rowByIndex store keys table.cols.toNat sought rows = some found ∧
      exactRow (.ofStore store settings) table sought (rows.map fun (i : Nat) => table.top + i)
        = .ok (found.map fun (i : Nat) => table.top + i) ∧
      ∀ i, found = some i → (i : Int) < table.rows := by
  induction rows with
  | nil => exact ⟨none, rfl, rfl, nofun⟩
  | cons i rows ih =>
      have hi := hrows i (List.mem_cons_self ..)
      have hshown : shownAt store keys (i * table.cols.toNat)
          = some (store.shown (Reference.key ⟨table.left + 0, table.top + i⟩)) :=
        shownAt_eq store h hi h.cols_pos
      rw [rowByIndex, hshown, Option.bind_eq_bind, Option.bind_some, List.map_cons, exactRow,
        tableCell_ofStore, ok_bind]
      cases (store.shown (Reference.key ⟨table.left + 0, table.top + i⟩)).same sought with
      | true =>
          refine ⟨some i, rfl, rfl, fun k hk => ?_⟩
          cases hk
          exact hi
      | false => exact ih fun k hk => hrows k (List.mem_cons_of_mem _ hk)

/-- The lookup by indices never leaves the list, and it is the lookup by
coordinates. -/
theorem lookupByIndex_eq (store : Store) (settings : Settings) {keys : List Text}
    (h : table.RowMajor keys) (hcolumn : 1 ≤ column ∧ column ≤ table.cols) :
    lookupByIndex store keys table.cols.toNat column.toNat sought
      = some (lookup (.ofStore store settings) table sought (column - 1) false) := by
  have hcols := h.cols_pos
  have hlength : keys.length / table.cols.toNat = table.rows.toNat := by
    have hrows := h.rows_eq.1
    rw [← Int.toNat_of_nonneg (Int.le_of_lt hcols), ← Int.natCast_ediv] at hrows
    rw [← hrows, Int.toNat_natCast]
  have hinside : ∀ i ∈ List.range table.rows.toNat, (i : Int) < table.rows := by
    intro i hi
    have := List.mem_range.mp hi
    omega
  obtain ⟨found, hindex, hsearch, hfound⟩ := rowByIndex_eq store settings h sought hinside
  have hrows : Range.integers table.top table.bottom
      = (List.range table.rows.toNat).map fun (i : Nat) => table.top + i := rfl
  rw [lookupByIndex, hlength, hindex, lookup, if_neg Bool.false_ne_true, hrows, hsearch]
  cases found with
  | none => rfl
  | some i =>
      have hplace : i * table.cols.toNat + column.toNat - 1
          = i * table.cols.toNat + (column.toNat - 1) := by omega
      have hshown := shownAt_eq store h (hfound i rfl)
        (j := column.toNat - 1) (by omega)
      rw [show ((column.toNat - 1 : Nat) : Int) = column - 1 by omega] at hshown
      simp only [Option.bind_eq_bind, Option.bind_some, hplace, hshown]
      rfl

-- ====================================================== exact lookups

/-- An exact lookup shows what stands in the wanted column of the least
row whose first cell shows what is sought, and fails exactly if there is
no such row. It comes to the same by indices in the list of the keys of
the table, which has a whole number of rows: the lookup by indices has
an answer, so no index is outside the list. -/
theorem exact_lookup (h : Seeks (.ofStore store settings) sought name table column args false) :
    ((hits store table sought).Nonempty → ∃ row, IsLeast (hits store table sought) row ∧
      call (.ofStore store settings) .lookup args
        = .ok (store.shown (Reference.key ⟨table.left + column - 1, row⟩))) ∧
    (call (.ofStore store settings) .lookup args = .error (.failure (.notFound sought)) ↔
      hits store table sought = ∅) ∧
    ∃ keys, Range.expand name = .ok keys ∧
      Range.shape? name = .ok (some (table.rows, table.cols)) ∧ table.RowMajor keys ∧
      (keys.length : Int) / table.cols = table.rows ∧ (keys.length : Int) % table.cols = 0 ∧
      lookupByIndex store keys table.cols.toNat column.toNat sought
        = some (call (.ofStore store settings) .lookup args) := by
  have hcall := call_lookup h
  have hlayout := table.rowMajor_cells
  have hkeys : Range.expand name = .ok table.cells := by
    rw [Range.expand, h.table_eq]
    rfl
  have hshape : Range.shape? name = .ok (some (table.rows, table.cols)) := by
    rw [Range.shape?, h.table_eq]
    rfl
  have hindex : lookupByIndex store table.cells table.cols.toNat column.toNat sought
      = some (call (.ofStore store settings) .lookup args) := by
    rw [hcall]
    exact lookupByIndex_eq store settings hlayout h.column_mem
  rw [lookup, if_neg Bool.false_ne_true] at hcall
  rw [← and_assoc]
  refine ⟨?_, table.cells, hkeys, hshape, hlayout, hlayout.rows_eq.1, hlayout.rows_eq.2, hindex⟩
  -- the search comes to a row, which is the least hit, or there is no hit
  rcases exactRow_spec store settings table sought with ⟨row, hsearch, hrow⟩ | ⟨hsearch, hnone⟩
  · have hfound : call (.ofStore store settings) .lookup args
        = .ok (store.shown (Reference.key ⟨table.left + column - 1, row⟩)) := by
      rw [hcall, hsearch, ok_bind, Int.add_sub_assoc]
      rfl
    refine ⟨fun _ => ⟨row, hrow, hfound⟩, ?_⟩
    rw [hfound]
    exact ⟨nofun, fun hnone => absurd hrow.1 (hnone ▸ Set.notMem_empty row)⟩
  · rw [hcall, hsearch, hnone]
    exact ⟨fun hsome => absurd hsome Set.not_nonempty_empty, fun _ => rfl, fun _ => rfl⟩

/-- The index of the second column as it is written. -/
theorem number_two (env : Environment) :
    number env (.number "2") = .ok (.finite false 0x10000000000000 1023 (by decide)) := by
  rw [number]
  exact toOption_eq_some.mp (by decide +kernel)

/-- A list of fruits, of which one stands there twice. -/
def fruits : Store :=
  ((((Store.empty.put "A1" (.ofInput "fig")).put "A2" (.ofInput "plum")).put "A3"
    (.ofInput "plum")).put "B2" (.ofInput "12")).put "B3" (.ofInput "30")

/-- The first of two rows, in a table that is named from its last corner
to its first. The direction in which it is named makes no difference. -/
theorem exact_lookup_plum :
    call (.ofStore fruits { now := default }) .lookup
      [.string "plum", .range "B3:A1", .number "2"] = .ok (.text "12") := by
  have hparts : Sought (.ofStore fruits { now := default }) (.string "plum") (.number "2")
      (.text "plum") "B3:A1" (.spanning ⟨1, 2⟩ ⟨0, 0⟩) 2 :=
    ⟨rfl, by rfl, ⟨_, number_two _, by decide +kernel⟩, by decide, by decide⟩
  have hleast : 1 ∈ hits fruits (.spanning ⟨1, 2⟩ ⟨0, 0⟩) (.text "plum") :=
    ⟨by decide, by decide, by decide +kernel⟩
  obtain ⟨row, hrow, hfound⟩ := (exact_lookup (.exact hparts)).1 ⟨1, hleast⟩
  have hle : row ≤ 1 := hrow.2 hleast
  have hge : 0 ≤ row := hrow.1.1
  have hnot : showsAt fruits (.spanning ⟨1, 2⟩ ⟨0, 0⟩) (.text "plum") 0 = false := by
    decide +kernel
  have hne : row ≠ 0 := by
    intro hzero
    have hshows := hrow.1.2.2
    rw [hzero, hnot] at hshows
    cases hshows
  obtain rfl : row = 1 := by omega
  have hkey : Reference.key ⟨1, 1⟩ = "B2" := by decide +kernel
  have hshown : fruits.shown "B2" = .text "12" := by rfl
  rw [hfound]
  exact congrArg Except.ok ((congrArg fruits.shown hkey).trans hshown)

end Spreadsheet.Eval
