/-
The list of a range is its rectangle.

# Rows in one list

The cells of a range stand in one list, row by row. With `cols` columns the
cell in column `j` of row `i` is at the index `i * cols + j`
(`rowMajor_cells`). This is said once for lists of lists of one length that
are joined (`getElem?_flatMap`), and a range is such a list: for each of its
rows, the cells from the first column to the last.

# Dividing the list

So the list has a whole number of rows, and its length over the number of
columns is that of the rows (`RowMajor.rows_eq`). A range has one column at
least, so the division makes sense.

# Inside the rectangle

Between two places that can be named, every place can be named
(`nameable_of_mem_spanning`): its row is written with no more figures than
the greater of their rows.
-/
import Mathlib.Data.List.Basic
import Spreadsheet.Proofs.Formula.Reads
import Spreadsheet.Proofs.Reference.Notation

namespace Spreadsheet

namespace Range

variable {r : Range} {cells : List Text} {first last : Int}

-- ====================================================== lines of integers

theorem length_integers : (integers first last).length = (last - first + 1).toNat := by
  rw [integers, List.length_map, List.length_range]

/-- The integers of a line, counted from the first. -/
theorem getElem?_integers {i : Nat} (hi : (i : Int) ≤ last - first) :
    (integers first last)[i]? = some (first + i) := by
  have hlt : i < (last - first + 1).toNat := by omega
  rw [integers, List.getElem?_map, List.getElem?_range hlt]
  rfl

/-- The integers of a line stand in order. -/
theorem pairwise_integers : (integers first last).Pairwise (· < ·) := by
  rw [integers, List.pairwise_map]
  refine List.pairwise_lt_range.imp fun {m n} hmn => ?_
  omega

-- ====================================================== rectangles

/-- A list of lists of one length, joined: the place of an item by the
two places it had. -/
theorem getElem?_flatMap {α β : Type} {f : α → List β} {width : Nat} {xs : List α}
    (hwidth : ∀ x ∈ xs, (f x).length = width) {i j : Nat} (hj : j < width) :
    (xs.flatMap f)[i * width + j]? = xs[i]?.bind fun x => (f x)[j]? := by
  induction xs generalizing i with
  | nil => rfl
  | cons x xs ih =>
      have hx := hwidth x (List.mem_cons_self ..)
      rw [List.flatMap_cons]
      cases i with
      | zero =>
          rw [Nat.zero_mul, Nat.zero_add, List.getElem?_append_left (by omega)]
          rfl
      | succ i =>
          have hindex : (i + 1) * width + j - (f x).length = i * width + j := by
            rw [hx, Nat.succ_mul]
            omega
          rw [List.getElem?_append_right (by rw [hx, Nat.succ_mul]; omega), hindex,
            ih fun y hy => hwidth y (List.mem_cons_of_mem _ hy), List.getElem?_cons_succ]

/-- The list holds the keys of a range row by row, and nothing else. -/
structure RowMajor (r : Range) (cells : List Text) : Prop where
  cols_pos : 0 < r.cols
  length_eq : (cells.length : Int) = r.rows * r.cols
  key_at : ∀ i j : Nat, (i : Int) < r.rows → (j : Int) < r.cols →
    cells[i * r.cols.toNat + j]? = some (Reference.key ⟨r.left + j, r.top + i⟩)

/-- The cells of a range stand row by row in its list: the place in the
list is the row times the columns, and the column. -/
theorem rowMajor_cells (r : Range) : r.RowMajor r.cells where
  cols_pos := by
    have := r.left_le_right
    unfold cols
    omega
  length_eq := by
    have hrows := r.top_le_bottom
    have hcols := r.left_le_right
    have hlength : r.cells.length = r.rows.toNat * r.cols.toNat := by
      simp [Range.cells, List.length_flatMap, length_integers, rows, cols]
    rw [hlength, Int.natCast_mul, Int.toNat_of_nonneg, Int.toNat_of_nonneg]
    · unfold cols
      omega
    · unfold rows
      omega
  key_at i j hi hj := by
    have hwidth : ∀ row ∈ integers r.top r.bottom,
        ((integers r.left r.right).map fun col => (Reference.mk col row).key).length
          = r.cols.toNat := by
      intro row _
      rw [List.length_map, length_integers]
      rfl
    unfold rows at hi
    rw [Range.cells, getElem?_flatMap hwidth (by omega), getElem?_integers (by omega),
      Option.bind_some, List.getElem?_map, getElem?_integers (by unfold cols at hj; omega)]
    rfl

/-- A list in rows divides into them without a rest. -/
theorem RowMajor.rows_eq (h : r.RowMajor cells) :
    (cells.length : Int) / r.cols = r.rows ∧ (cells.length : Int) % r.cols = 0 := by
  rw [h.length_eq]
  exact ⟨Int.mul_ediv_cancel _ (Int.ne_of_gt h.cols_pos), Int.mul_emod_left ..⟩

-- ====================================================== places inside

/-- Between two places that can be named, every place can be named. Its
row is no longer than the longer one of the two. -/
theorem nameable_of_mem_spanning {a b : Reference} (ha : a.Nameable) (hb : b.Nameable)
    {row col : Int} (hrow : (spanning a b).top ≤ row ∧ row ≤ (spanning a b).bottom)
    (hcol : (spanning a b).left ≤ col ∧ col ≤ (spanning a b).right) :
    (Reference.mk col row).Nameable := by
  have hshort : ∀ n : Nat, (Nat.toDigits 10 n).length ≤ Decimal.maxDigits ↔
      n < 10 ^ Decimal.maxDigits :=
    fun n => Nat.length_toDigits_le_iff (by decide) (by decide)
  have hrows := (hshort _).mp ha.short
  have hrows' := (hshort _).mp hb.short
  have hfirst := ha.row
  have hfirst' := hb.row
  have hleft := ha.col
  have hleft' := hb.col
  simp only [spanning] at hrow hcol
  refine ⟨?_, ?_, (hshort _).mpr ?_⟩
  · show 0 ≤ col
    omega
  · show 0 ≤ row + 1
    omega
  · show (row + 1).toNat < 10 ^ Decimal.maxDigits
    rcases Int.le_total a.row b.row with hle | hle
    · exact Nat.lt_of_le_of_lt (by omega) hrows'
    · exact Nat.lt_of_le_of_lt (by omega) hrows

end Range

end Spreadsheet
