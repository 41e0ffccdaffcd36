/-
The grid has a place for every used cell.

# What is at a place

The cells of a store that have a place are laid out in the order of the
store, so of two cells at one place the later one is shown
(`showsAt_find?`). Two keys name one place where a row is spelled with zeros
in front. A key that is no reference has no place, nor has one with the row
number zero; neither is shown, and neither widens the grid.

# The extent

The grid ends with the last used row and the last used column
(`extent_of_placed`). Both are the greatest coordinate plus one, found by a
fold over the cells (`foldl_coordinate_spec`), and both are zero where no
place is used.

# Rows of a preview

In a row that a client reads every column has a label of its own, and none
of them is the word for the number of the row, so no entry is lost
(`nodup_names_rowFields`).

# What is assumed

The grid is built in memory all at once, and how large an array the runtime
can index or hold is no part of it: a key may name a row of four thousand
digits, and the grid then has as many rows. What is proved here holds as far
as an array of that size can be had.
-/
import Spreadsheet.Proofs.Reference.Refusal

namespace Spreadsheet

open Reference (Names)

variable {store : Store} {grid : Grid} {placed : List (Reference × Content)} {place : Reference}
  {content : Content} {rows cols : Nat}

-- ====================================================== what a store shows at a place

namespace Store

/-- A place of the grid that some key of the store names. -/
def Uses (store : Store) (place : Reference) : Prop :=
  0 ≤ place.row ∧ ∃ key ∈ store.entries.names, Names key place

/-- The last cell of the store, in the order of its entries, whose key
names the place. -/
def LastAt (store : Store) (place : Reference) (cell : Cell) : Prop :=
  ∃ before key after, store.entries = before ++ (key, cell) :: after ∧ Names key place ∧
    ∀ entry ∈ after, ¬ Names entry.1 place

/-- What the store shows at a place: what the last cell there shows, or
nothing. -/
inductive ShowsAt (store : Store) (place : Reference) : Content → Prop where
  | last {cell : Cell} (h : store.LastAt place cell) : ShowsAt store place cell.rendered
  | blank (h : ∀ key ∈ store.entries.names, ¬ Names key place) :
      ShowsAt store place (.text [])

/-- So many rows and columns that the last of each is used, and none at
all if no place is. -/
structure Extent (store : Store) (rows cols : Nat) : Prop where
  inside : ∀ place, store.Uses place → place.row < rows ∧ place.col < cols
  last_row : (∃ place, store.Uses place) → ∃ place, store.Uses place ∧ place.row + 1 = rows
  last_col : (∃ place, store.Uses place) → ∃ place, store.Uses place ∧ place.col + 1 = cols
  empty : (¬ ∃ place, store.Uses place) → rows = 0 ∧ cols = 0

end Store

namespace Grid

-- ====================================================== the cells with a place

/-- An entry of a store laid out, if it has a place in the grid. -/
def placedCell (entry : Text × Cell) : Option (Reference × Content) :=
  ((Reference.parse? entry.1).toOption.join.map (·, entry.2.rendered)).filter
    fun (place, _) => decide (0 ≤ place.row)

/-- An entry is laid out exactly if its key names a place in the grid,
and it shows what the cell does. -/
theorem placedCell_eq_some_iff {entry : Text × Cell} :
    placedCell entry = some (place, content) ↔
      Names entry.1 place ∧ 0 ≤ place.row ∧ entry.2.rendered = content := by
  unfold placedCell
  rw [Option.filter_eq_some_iff, Option.map_eq_some_iff, decide_eq_true_iff]
  constructor
  · intro h
    obtain ⟨⟨found, hfound, hpair⟩, hrow⟩ := h
    obtain ⟨rfl, rfl⟩ := Prod.mk.inj hpair
    exact ⟨toOption_eq_some.mp (Option.join_eq_some_iff.mp hfound), hrow, rfl⟩
  · intro h
    obtain ⟨hnames, hrow, rfl⟩ := h
    exact ⟨⟨place, Option.join_eq_some_iff.mpr (toOption_eq_some.mpr hnames), rfl⟩, hrow⟩

/-- The cells are laid out one by one, in the order of the store, where
all keys can be placed. -/
theorem placedCells_eq (h : ∀ key ∈ store.entries.names, Placed key) :
    placedCells store = .ok (store.entries.filterMap placedCell) := by
  unfold placedCells
  rw [mapM_eq_map (g := fun entry =>
    (Reference.parse? entry.1).toOption.join.map (·, entry.2.rendered)), ok_bind,
    List.filterMap_map]
  · rfl
  · intro entry hentry
    obtain ⟨place, hplace⟩ := h entry.1 (List.mem_map_of_mem hentry)
    dsimp only
    rw [hplace]
    cases place <;> rfl

/-- Something is laid out at a place exactly if the place is used, by
one of the keys that name it at least. -/
theorem mem_placed_iff : (∃ content, (place, content) ∈ store.entries.filterMap placedCell) ↔
    store.Uses place := by
  constructor
  · intro h
    obtain ⟨content, hmem⟩ := h
    obtain ⟨entry, hentry, hplaced⟩ := List.mem_filterMap.mp hmem
    obtain ⟨hnames, hrow, -⟩ := placedCell_eq_some_iff.mp hplaced
    exact ⟨hrow, entry.1, List.mem_map_of_mem hentry, hnames⟩
  · intro h
    obtain ⟨hrow, key, hkey, hnames⟩ := h
    obtain ⟨entry, hentry, rfl⟩ := List.mem_map.mp hkey
    exact ⟨_, List.mem_filterMap.mpr
      ⟨entry, hentry, placedCell_eq_some_iff.mpr ⟨hnames, hrow, rfl⟩⟩⟩

/-- The last of the cells at a place stands for it, and without one the
place is blank. -/
theorem showsAt_find? (hrow : 0 ≤ place.row) :
    store.ShowsAt place ((((store.entries.filterMap placedCell).reverse.find?
      fun (other, _) => other = place).map (·.2)).getD (.text [])) := by
  cases hfind : (store.entries.filterMap placedCell).reverse.find?
      fun (other, _) => other = place with
  | none =>
      apply Store.ShowsAt.blank
      intro key hkey hnames
      obtain ⟨content, hmem⟩ := mem_placed_iff.mpr ⟨hrow, key, hkey, hnames⟩
      have hother := List.find?_eq_none.mp hfind _ (List.mem_reverse.mpr hmem)
      simp at hother
  | some found =>
      obtain ⟨hfound, after, before, hsplit, hafter⟩ := List.find?_eq_some_iff_append.mp hfind
      obtain ⟨other, content⟩ := found
      obtain rfl : other = place := of_decide_eq_true hfound
      rw [List.reverse_eq_append_iff, List.reverse_cons, List.append_assoc,
        List.singleton_append] at hsplit
      -- what was laid out in front of and behind the cell comes from its neighbours in the store
      obtain ⟨front, rest, hentries, -, hrest⟩ := List.filterMap_eq_append_iff.mp hsplit
      obtain ⟨gap, entry, others, rfl, hgap, hplaced, hothers⟩ := List.filterMap_eq_cons_iff.mp hrest
      obtain ⟨hnames, -, rfl⟩ := placedCell_eq_some_iff.mp hplaced
      apply Store.ShowsAt.last
      refine ⟨front ++ gap, entry.1, others, ?_, hnames, ?_⟩
      · rw [hentries, List.append_assoc]
      · intro later hlater hlater'
        have hmem : (other, later.2.rendered) ∈ others.filterMap placedCell :=
          List.mem_filterMap.mpr
            ⟨later, hlater, placedCell_eq_some_iff.mpr ⟨hlater', hrow, rfl⟩⟩
        rw [hothers] at hmem
        have hnot := hafter _ (List.mem_reverse.mp hmem)
        simp at hnot

-- ====================================================== the extent

/-- The greatest of some numbers and a start is reached, and no number
is greater. -/
theorem foldl_max_spec {α : Type} (f : α → Nat) (as : List α) (start : Nat) :
    (∀ a ∈ as, f a ≤ as.foldl (fun n a => max n (f a)) start) ∧
      start ≤ as.foldl (fun n a => max n (f a)) start ∧
      (as.foldl (fun n a => max n (f a)) start = start ∨
        ∃ a ∈ as, f a = as.foldl (fun n a => max n (f a)) start) := by
  induction as generalizing start with
  | nil => simp
  | cons a as ih =>
      obtain ⟨hall, hstart, hreached⟩ := ih (max start (f a))
      rw [List.foldl_cons]
      refine ⟨?_, by omega, ?_⟩
      · intro b hb
        rcases List.mem_cons.mp hb with rfl | hb
        · omega
        · exact hall b hb
      · rcases hreached with heq | ⟨b, hb, heq⟩
        · rcases Nat.le_total (f a) start with hle | hle
          · exact .inl (by omega)
          · exact .inr ⟨a, List.mem_cons_self .., by omega⟩
        · exact .inr ⟨b, List.mem_cons_of_mem _ hb, heq⟩

/-- One more than the greatest coordinate of some places, zero if there
are none. -/
theorem foldl_coordinate_spec (coordinate : Reference → Int)
    (h : ∀ f ∈ placed, 0 ≤ coordinate f.1) {size : Nat}
    (hsize : placed.foldl (fun n (place, _) => max n (coordinate place + 1).toNat) 0 = size) :
    (∀ f ∈ placed, coordinate f.1 < size) ∧
      (placed ≠ [] → ∃ f ∈ placed, coordinate f.1 + 1 = size) := by
  obtain ⟨hall, -, hreached⟩ := foldl_max_spec (fun f => (coordinate f.1 + 1).toNat) placed 0
  rw [hsize] at hall hreached
  constructor
  · intro f hf
    have hle := hall f hf
    have hnonneg := h f hf
    omega
  · intro hne
    obtain ⟨f, hf⟩ := List.exists_mem_of_ne_nil placed hne
    rcases hreached with heq | ⟨f, hf, heq⟩
    · have hle := hall f hf
      have hnonneg := h f hf
      omega
    · exact ⟨f, hf, by have hnonneg := h f hf; omega⟩

/-- The cells that are laid out reach as far as the used places do,
because each of the two folds ends with the greatest end there is. -/
theorem extent_of_placed (hplaced : store.entries.filterMap placedCell = placed)
    (hrows : placed.foldl (fun n (place, _) => max n (place.row + 1).toNat) 0 = rows)
    (hcols : placed.foldl (fun n (place, _) => max n (place.col + 1).toNat) 0 = cols) :
    store.Extent rows cols := by
  have huses : ∀ place, store.Uses place ↔ ∃ content, (place, content) ∈ placed := by
    intro place
    rw [← hplaced, mem_placed_iff]
  have hcol : ∀ f ∈ placed, 0 ≤ f.1.col := by
    intro f hf
    obtain ⟨-, key, -, hnames⟩ := (huses f.1).mpr ⟨f.2, hf⟩
    exact (Reference.nameable_of_parse? hnames).col
  obtain ⟨hrow, hlastRow⟩ := foldl_coordinate_spec Reference.row
    (fun f hf => ((huses f.1).mpr ⟨f.2, hf⟩).1) hrows
  obtain ⟨hcol, hlastCol⟩ := foldl_coordinate_spec Reference.col hcol hcols
  have hne : (∃ place, store.Uses place) → placed ≠ [] := by
    intro h
    obtain ⟨place, hplace⟩ := h
    obtain ⟨content, hmem⟩ := (huses place).mp hplace
    exact List.ne_nil_of_mem hmem
  -- all used places are inside, and the last row and column are used, unless nothing is
  refine ⟨?_, ?_, ?_, ?_⟩
  · intro place hplace
    obtain ⟨content, hmem⟩ := (huses place).mp hplace
    exact ⟨hrow _ hmem, hcol _ hmem⟩
  · intro h
    obtain ⟨f, hf, heq⟩ := hlastRow (hne h)
    exact ⟨f.1, (huses f.1).mpr ⟨f.2, hf⟩, heq⟩
  · intro h
    obtain ⟨f, hf, heq⟩ := hlastCol (hne h)
    exact ⟨f.1, (huses f.1).mpr ⟨f.2, hf⟩, heq⟩
  · intro h
    have hnil : placed = [] := by
      apply List.eq_nil_iff_forall_not_mem.mpr
      intro f hf
      exact h ⟨f.1, (huses f.1).mpr ⟨f.2, hf⟩⟩
    rw [hnil] at hrows hcols
    exact ⟨hrows.symm, hcols.symm⟩

/-- A store whose keys can be placed has a grid of the extent of its
used places, which holds at each place what the store shows there. -/
theorem exists_ofStore (h : ∀ key ∈ store.entries.names, Placed key) :
    ∃ grid, ofStore store = .ok grid ∧ store.Extent grid.rows grid.cols ∧
      ∀ row col : Nat, store.ShowsAt ⟨col, row⟩ (grid.contentAt row col) := by
  refine ⟨⟨(store.entries.filterMap placedCell).reverse, _, _⟩, ?_, extent_of_placed rfl rfl rfl, ?_⟩
  · unfold ofStore
    rw [placedCells_eq h]
    rfl
  · intro row col
    exact showsAt_find? (Int.natCast_nonneg row)

-- ====================================================== rows as a client reads them

/-- The entries of a row as a client reads it. -/
def rowFields (grid : Grid) (row : Nat) : Entries Json :=
  (Text.ofString "row", .integer (row + 1)) ::
    (List.range grid.cols).map fun (col : Nat) =>
      (Text.ofChars (Column.label col), .string (rowText (grid.contentAt row col)))

/-- The names in a row are the word for its number and the labels. -/
theorem names_rowFields (grid : Grid) (row : Nat) :
    (grid.rowFields row).names = Text.ofString "row" :: grid.columns := by
  unfold rowFields Entries.names columns
  rw [List.map_cons, List.map_map]
  rfl

/-- No two columns have one label. -/
theorem label_injective : Function.Injective fun col : Nat => Text.ofChars (Column.label col) := by
  intro m n h
  dsimp only at h
  rw [Column.label_natCast, Column.label_natCast] at h
  have hcol := congrArg Column.ofLetters h
  rw [Column.ofLetters_lettersOf, Column.ofLetters_lettersOf] at hcol
  exact Int.ofNat.inj hcol

/-- Labels are made of capital letters, so the word for the number of a
row is none of them. -/
theorem row_ne_label (col : Nat) : Text.ofChars (Column.label col) ≠ Text.ofString "row" := by
  intro h
  have hmem : CodePoint.char 'r' ∈ Text.ofChars (Column.label col) := by
    rw [h]
    decide
  obtain ⟨c, hc, hchar⟩ := List.mem_map.mp hmem
  rw [Column.label_natCast] at hc
  have hletter := Column.isLetter_of_mem_lettersOf hc
  rw [hchar] at hletter
  cases hletter

/-- No entry of a row takes the place of another one, since no label of
a column is the word for the number of the row. -/
theorem nodup_names_rowFields (grid : Grid) (row : Nat) : (grid.rowFields row).names.Nodup := by
  rw [names_rowFields]
  apply List.nodup_cons.mpr
  unfold columns
  constructor
  · intro hmem
    obtain ⟨col, -, hlabel⟩ := List.mem_map.mp hmem
    exact row_ne_label col hlabel
  · exact List.nodup_range.map label_injective

/-- Under the label of a column stands what the grid holds there. -/
theorem find?_rowFields {col : Nat} (hcol : col < grid.cols) (row : Nat) :
    (grid.rowFields row).find? (Text.ofChars (Column.label col))
      = some (.string (rowText (grid.contentAt row col))) := by
  apply (Entries.mem_iff_find? (grid.nodup_names_rowFields row)).mp
  apply List.mem_cons_of_mem
  exact List.mem_map.mpr ⟨col, List.mem_range.mpr hcol, rfl⟩

/-- A preview has as many rows as are asked for, or all. -/
theorem length_preview (grid : Grid) (limit : Nat) :
    (grid.preview limit).length = min limit grid.rows := by
  unfold preview previewRows
  rw [List.length_map, List.length_range, if_pos (Int.natCast_nonneg limit), Int.toNat_natCast]

/-- A row of a preview is that row of the grid. -/
theorem getElem?_preview {limit row : Nat} (hrow : row < min limit grid.rows) :
    (grid.preview limit)[row]? = some (.object (grid.rowFields row)) := by
  unfold preview previewRows
  rw [if_pos (Int.natCast_nonneg limit), Int.toNat_natCast, List.getElem?_map,
    List.getElem?_range hrow]
  rfl

/-- A store with short rows has a grid that ends with its last used row
and its last used column, with a label for each column and the numbers
of the rows from one on. At each place it holds what the last cell there
shows, or nothing. A client reads as many of its first rows as it asks
for, and in each of them, under names of their own, the number of the
row and what the grid holds in each column. -/
theorem places_used_cells (store : Store) (limit : Nat)
    (hshort : ∀ key ∈ store.entries.names, ShortRow key) :
    ∃ grid, ofStore store = .ok grid ∧ store.Extent grid.rows grid.cols ∧
      grid.columns
        = (List.range grid.cols).map (fun col : Nat => Text.ofChars (Column.label col)) ∧
      grid.rowNumbers = List.range' 1 grid.rows ∧
      (∀ row < grid.rows, ∀ col < grid.cols,
        store.ShowsAt ⟨col, row⟩ (grid.contentAt row col)) ∧
      (grid.preview limit).length = min limit grid.rows ∧
      ∀ row < min limit grid.rows, ∃ fields : Entries Json,
        (grid.preview limit)[row]? = some (.object fields) ∧
        fields.names = Text.ofString "row" :: grid.columns ∧ fields.names.Nodup ∧
        fields.find? (Text.ofString "row") = some (.integer (row + 1)) ∧
        ∀ col < grid.cols, fields.find? (Text.ofChars (Column.label col))
          = some (.string (rowText (grid.contentAt row col))) := by
  obtain ⟨grid, hgrid, hextent, hshows⟩ :=
    exists_ofStore fun key hkey => placed_iff.mpr (hshort key hkey)
  refine ⟨grid, hgrid, hextent, rfl, ?_, fun row _ col _ => hshows row col,
    grid.length_preview limit, ?_⟩
  · rw [List.range'_eq_map_range]
    exact List.map_congr_left fun n _ => Nat.add_comm n 1
  · intro row hrow
    refine ⟨grid.rowFields row, getElem?_preview hrow, grid.names_rowFields row,
      grid.nodup_names_rowFields row, ?_, fun col hcol => find?_rowFields hcol row⟩
    unfold rowFields
    rw [Entries.find?_cons, if_pos rfl]

/-- Two spellings of one place, a key that is no reference, one in row
zero, and a cell in the third row. -/
def overwritten : Store :=
  Store.empty |>.put "A01" (.ofInput "old") |>.put "NOTE" (.ofInput "kept")
    |>.put "C0" (.ofInput "above") |>.put "A1" (.ofInput "new") |>.put "B3" (.ofInput "last")

/-- The later of two spellings is shown, what has no place in the grid
does not widen it, and a preview of two rows ends before the last
row. -/
theorem places_used_cells_overwritten :
    overwritten.Extent 3 2 ∧ overwritten.ShowsAt ⟨0, 0⟩ (.text "new") ∧
      overwritten.ShowsAt ⟨1, 0⟩ (.text []) ∧
      ∃ grid, ∃ fields : Entries Json, ofStore overwritten = .ok grid ∧
        (grid.preview 2).length = 2 ∧ (grid.preview 2)[0]? = some (.object fields) ∧
        fields.names = ["row", "A", "B"] ∧ fields.find? "row" = some (.integer 1) ∧
        fields.find? "A" = some (.string "new") ∧ fields.find? "B" = some (.string []) := by
  have hgrid : ofStore overwritten
      = .ok ⟨[(⟨1, 2⟩, .text "last"), (⟨0, 0⟩, .text "new"), (⟨0, 0⟩, .text "old")], 3, 2⟩ := by
    rfl
  have hplaced := Store.exists_grid_iff.mp ⟨_, hgrid⟩
  obtain ⟨grid, hgrid', hextent, hcolumns, -, hshows, hlength, hrows⟩ :=
    places_used_cells overwritten 2 fun key hkey => placed_iff.mp (hplaced key hkey)
  obtain rfl := Except.ok.inj (hgrid.symm.trans hgrid')
  obtain ⟨fields, hfields, hnames, -, hrow, hcells⟩ := hrows 0 (by decide)
  have hlabel : Text.ofChars (Column.label (0 : Nat)) = "A" ∧
      Text.ofChars (Column.label (1 : Nat)) = "B" := by
    constructor <;> cbv
  refine ⟨hextent, hshows 0 (by decide) 0 (by decide), hshows 0 (by decide) 1 (by decide),
    _, fields, hgrid, hlength, hfields, ?_, hrow, ?_, ?_⟩
  · rw [hnames, hcolumns]
    cbv
  · rw [← hlabel.1]
    exact hcells 0 (by decide)
  · rw [← hlabel.2]
    exact hcells 1 (by decide)

end Grid

end Spreadsheet
