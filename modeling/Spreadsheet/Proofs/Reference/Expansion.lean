/-
The text of a range, and the cells that it is expanded to.

# Corners

A text names a range when two references stand around its only colon
(`Corners`); any other text of short rows names none
(`parse?_of_not_corners`). The two references may have blanks around them
and be in small letters. The range is the rectangle between the two places,
whichever of its corners are given and in which order
(`spanning_of_opposite`).

# Cells

The cells of the rectangle are listed row by row. Every cell of it can be
named, since its row is no longer than that of one of the corners, so each
key of the list is read as its own place, and none stands there twice
(`expand_rectangle`). The spelling of the corners leaves no trace in the
keys: a zero in front of a row is gone.

# Refused corners

A corner whose row is too long is refused, and no list is made. What is said
here is said of texts with short rows; which texts are refused is said
elsewhere.
-/
import Mathlib
import Spreadsheet.Proofs.Recalculation.Readable
import Spreadsheet.Proofs.Reference.Coordinates

namespace Spreadsheet.Range

variable {text first second : Text} {a b a' b' : Reference}

-- ====================================================== the two halves

/-- Two texts, neither of them empty, around the only colon of a
text. -/
structure Halves (text first second : Text) : Prop where
  text_eq : text = first ++ .char ':' :: second
  first_ne_nil : first ≠ []
  second_ne_nil : second ≠ []
  notMem_first : .char ':' ∉ first
  notMem_second : .char ':' ∉ second

theorem corners?_eq_some_iff : corners? text = some (first, second) ↔ Halves text first second := by
  constructor
  · intro h
    have hsplit : text.takeWhile (· ≠ .char ':') ++ text.dropWhile (· ≠ .char ':') = text :=
      List.takeWhile_append_dropWhile
    have hcolon : .char ':' ∉ text.takeWhile (· ≠ .char ':') := fun hmem => by
      simpa using List.mem_takeWhile_imp hmem
    unfold corners? at h
    dsimp only at h
    split at h
    · cases h
    · next c rest hrest =>
      have hhead : c = .char ':' := by simpa using Text.eq_false_of_dropWhile hrest
      split at h
      · cases h
      · next hparts =>
        obtain ⟨rfl, rfl⟩ := Prod.mk.inj (Option.some.inj h)
        simp only [Bool.or_eq_true, List.isEmpty_iff, List.contains_iff_mem, not_or] at hparts
        rw [hrest, hhead] at hsplit
        exact ⟨hsplit.symm, hparts.1.1, hparts.1.2, hcolon, hparts.2⟩
  · rintro ⟨rfl, hfirst, hsecond, hcolon, hcolon'⟩
    have hkept : ∀ c ∈ first, decide (c ≠ .char ':') = true := fun c hc =>
      decide_eq_true fun heq => hcolon (heq ▸ hc)
    have htake : (first ++ .char ':' :: second).takeWhile (· ≠ .char ':') = first := by
      rw [List.takeWhile_append_of_pos hkept]
      simp
    have hdrop : (first ++ .char ':' :: second).dropWhile (· ≠ .char ':') = .char ':' :: second := by
      rw [List.dropWhile_append_of_pos hkept]
      simp
    unfold corners?
    rw [htake, hdrop]
    simp [hfirst, hsecond, hcolon']

-- ====================================================== the two corners

/-- The halves of a text are references, perhaps between blanks, to two
places. -/
def Corners (text : Text) (a b : Reference) : Prop :=
  ∃ first second, Halves text first second ∧ Reference.parse? (Text.trim first) = .ok (some a) ∧
    Reference.parse? (Text.trim second) = .ok (some b)

theorem Corners.nameable (h : Corners text a b) : a.Nameable ∧ b.Nameable := by
  obtain ⟨first, second, -, ha, hb⟩ := h
  exact ⟨Reference.nameable_of_parse? ha, Reference.nameable_of_parse? hb⟩

/-- With two places for its corners a text names the range between
them. -/
theorem Corners.parse? (h : Corners text a b) : parse? text = .ok (some (spanning a b)) := by
  obtain ⟨first, second, hhalves, ha, hb⟩ := h
  unfold Range.parse?
  simp only [corners?_eq_some_iff.mpr hhalves, ha, hb]
  rfl

/-- A text of short rows without two places for its corners names no
range. -/
theorem parse?_of_not_corners (h : ¬∃ a b, Corners text a b)
    (hshort : ∀ first second, Halves text first second →
      ShortRow (Text.trim first) ∧ ShortRow (Text.trim second)) : parse? text = .ok none := by
  obtain ⟨r, hr⟩ := exists_parse?_iff.mpr fun first second hcorners =>
    hshort first second (corners?_eq_some_iff.mp hcorners)
  cases r with
  | none => exact hr
  | some r =>
      exfalso
      unfold parse? at hr
      split at hr
      · cases hr
      · next first second hcorners =>
        obtain ⟨a, ha, hr⟩ := bind_eq_ok.mp hr
        obtain ⟨b, hb, hr⟩ := bind_eq_ok.mp hr
        cases a with
        | none => cases hr
        | some a =>
            cases b with
            | none => cases hr
            | some b => exact h ⟨a, b, first, second, corners?_eq_some_iff.mp hcorners, ha, hb⟩

/-- Two places are opposite corners of the rectangle that two others
span: their columns are those of the others in either order, and so are
their rows. -/
def Opposite (a b a' b' : Reference) : Prop :=
  (a'.col = a.col ∧ b'.col = b.col ∨ a'.col = b.col ∧ b'.col = a.col) ∧
    (a'.row = a.row ∧ b'.row = b.row ∨ a'.row = b.row ∧ b'.row = a.row)

theorem spanning_of_opposite (h : Opposite a b a' b') : spanning a' b' = spanning a b := by
  unfold spanning
  obtain ⟨⟨hcol, hcol'⟩ | ⟨hcol, hcol'⟩, ⟨hrow, hrow'⟩ | ⟨hrow, hrow'⟩⟩ := h <;>
    simp only [hcol, hcol', hrow, hrow', Int.min_comm, Int.max_comm]

-- ====================================================== the cells

/-- Between places that can be named no key is listed twice, as
different places have different keys. -/
theorem nodup_cells_spanning (ha : a.Nameable) (hb : b.Nameable) :
    (spanning a b).cells.Nodup := by
  have hnameable : ∀ {row col : Int}, row ∈ integers (spanning a b).top (spanning a b).bottom →
      col ∈ integers (spanning a b).left (spanning a b).right → (Reference.mk col row).Nameable :=
    fun hrow hcol => nameable_of_mem_spanning ha hb (mem_integers.mp hrow) (mem_integers.mp hcol)
  refine List.nodup_flatMap.mpr ⟨fun row hrow => ?_, ?_⟩
  · refine List.Nodup.map_on (fun col hcol col' hcol' heq => ?_)
      (pairwise_integers.imp Int.ne_of_lt)
    exact congrArg Reference.col
      (Reference.eq_of_key_eq (hnameable hrow hcol) (hnameable hrow hcol') heq)
  · refine pairwise_integers.imp_of_mem fun {row row'} hrow hrow' hlt => ?_
    rw [Function.onFun, List.disjoint_left]
    intro key hkey hkey'
    obtain ⟨col, hcol, rfl⟩ := List.mem_map.mp hkey
    obtain ⟨col', hcol', heq⟩ := List.mem_map.mp hkey'
    have hplace := Reference.eq_of_key_eq (hnameable hrow' hcol') (hnameable hrow hcol) heq
    exact absurd (congrArg Reference.row hplace) (Int.ne_of_gt hlt)

/-- A text with two places for its corners is expanded to the rectangle
between them, row by row: with as many rows and columns as its shape
says, the cell in column `j` of row `i` is at the index `i * cols + j`.
Each key is read as its own place and stands there once, and opposite
corners of the rectangle, in either order, name the same list. Any other
text of short rows is expanded to no cells and has no shape. -/
theorem expand_rectangle (text : Text) :
    (∀ a b, Corners text a b → ∃ (rows cols : Nat) (cells : List Text),
      (rows : Int) = max a.row b.row - min a.row b.row + 1 ∧
        (cols : Int) = max a.col b.col - min a.col b.col + 1 ∧
        shape? text = .ok (some (rows, cols)) ∧ expand text = .ok cells ∧
        cells.length = rows * cols ∧ 1 ≤ cells.length ∧
        (∀ i < rows, ∀ j < cols,
          let place : Reference := ⟨min a.col b.col + j, min a.row b.row + i⟩
          cells[i * cols + j]? = some place.key ∧ Reference.parse? place.key = .ok (some place)) ∧
        cells.Nodup ∧
        ∀ text' a' b', Corners text' a' b' → Opposite a b a' b' → expand text' = .ok cells) ∧
      ((¬∃ a b, Corners text a b) →
        (∀ first second, Halves text first second →
          ShortRow (Text.trim first) ∧ ShortRow (Text.trim second)) →
        expand text = .ok [] ∧ shape? text = .ok none) := by
  constructor
  · intro a b h
    obtain ⟨ha, hb⟩ := h.nameable
    have hlist := rowMajor_cells (spanning a b)
    have hwide := (spanning a b).left_le_right
    have hhigh := (spanning a b).top_le_bottom
    have hrows : ((spanning a b).rows.toNat : Int) = (spanning a b).rows :=
      Int.toNat_of_nonneg (by unfold rows; omega)
    have hcols : ((spanning a b).cols.toNat : Int) = (spanning a b).cols :=
      Int.toNat_of_nonneg (by unfold cols; omega)
    have hlength : (spanning a b).cells.length
        = (spanning a b).rows.toNat * (spanning a b).cols.toNat := by
      have hlength := hlist.length_eq
      rw [← hrows, ← hcols] at hlength
      exact_mod_cast hlength
    refine ⟨_, _, _, hrows, hcols, ?_, ?_, hlength, ?_, fun i hi j hj => ⟨?_, ?_⟩,
      nodup_cells_spanning ha hb, fun text' a' b' h' hopposite => ?_⟩
    · rw [hrows, hcols, shape?, h.parse?]
      rfl
    · rw [expand, h.parse?]
      rfl
    · exact List.length_pos_iff.mpr (cells_ne_nil _)
    · exact hlist.key_at i j (by omega) (by omega)
    · refine Reference.parse?_key (nameable_of_mem_spanning ha hb ?_ ?_)
      · simp only [rows, spanning] at hi ⊢
        omega
      · simp only [cols, spanning] at hj ⊢
        omega
    · rw [expand, h'.parse?, spanning_of_opposite hopposite]
      rfl
  · intro h hshort
    have hnone := parse?_of_not_corners h hshort
    unfold expand shape?
    rw [hnone]
    exact ⟨rfl, rfl⟩

/-- Two rows, the first of them row zero, from the lower right corner to
the upper left one and from the lower left to the upper right; and a
text of three references, which names no range. -/
theorem expand_rectangle_rowZero :
    Corners " c1:b0" ⟨2, 0⟩ ⟨1, -1⟩ ∧ Corners "B1 : C0" ⟨1, 0⟩ ⟨2, -1⟩ ∧
      expand " c1:b0" = .ok ["B0", "C0", "B1", "C1"] ∧
      expand "B1 : C0" = expand " c1:b0" ∧ (["B0", "C0", "B1", "C1"] : List Text).Nodup ∧
      expand "A1:B2:C3" = .ok [] ∧ shape? "A1:B2:C3" = .ok none := by
  have hcorners : Corners " c1:b0" ⟨2, 0⟩ ⟨1, -1⟩ :=
    ⟨" c1", "b0", corners?_eq_some_iff.mp (by decide), by rfl, by rfl⟩
  have hcorners' : Corners "B1 : C0" ⟨1, 0⟩ ⟨2, -1⟩ :=
    ⟨"B1 ", " C0", corners?_eq_some_iff.mp (by decide), by rfl, by rfl⟩
  have hnone : ∀ first second, ¬Halves "A1:B2:C3" first second := by
    intro first second h
    have hcorners := corners?_eq_some_iff.mpr h
    rw [show corners? "A1:B2:C3" = none by decide] at hcorners
    cases hcorners
  have hother : ¬∃ a b, Corners "A1:B2:C3" a b := by
    rintro ⟨a, b, first, second, h, -⟩
    exact hnone first second h
  obtain ⟨rows, cols, cells, -, -, -, hexpand, -, -, -, hnodup, hopposite⟩ :=
    (expand_rectangle " c1:b0").1 _ _ hcorners
  have hcells : expand " c1:b0" = .ok ["B0", "C0", "B1", "C1"] := by cbv
  obtain rfl := Except.ok.inj (hexpand.symm.trans hcells)
  exact ⟨hcorners, hcorners', hcells,
    (hopposite _ _ _ hcorners' ⟨.inr ⟨rfl, rfl⟩, .inl ⟨rfl, rfl⟩⟩).trans hexpand.symm, hnodup,
    (expand_rectangle "A1:B2:C3").2 hother fun first second h => absurd h (hnone first second)⟩

end Spreadsheet.Range
