/-
The value of a number.

# Rational numbers

A finite number is a whole number of units, so it stands for a rational
number (`toRat`). Its sign and its magnitude make up that value, and nothing
else does: two finite numbers that agree in both are one number
(`eq_of_magnitude`). A zero has a sign too, which the value does not tell.
Infinities stand for no value, and lemmas about values ask for an integer
part, which only finite numbers have.

# Integer parts

The integer part of a number can be compared with a bound by the value
alone: the part is past the bound exactly if the value has come to the next
integer (`lt_truncate?_iff`). A column number of a lookup is such a part,
and the comparison with the number of columns is therefore one of values.
-/
import Mathlib
import Spreadsheet.Proofs.Binary64.Rounding

namespace Spreadsheet.Binary64

variable {x y : Binary64} {n bound : Int}

/-- The rational number that a finite number stands for. -/
def toRat (x : Binary64) : ℚ :=
  x.units / unitsPerOne

theorem unitsPerOne_pos_rat : (0 : ℚ) < unitsPerOne := by
  exact_mod_cast unitsPerOne_pos

-- ====================================================== finite numbers

theorem isNan_of_ne (h : x ≠ .nan) : x.isNan = false := by
  cases x with
  | nan => exact absurd rfl h
  | infinite => rfl
  | finite => rfl

theorem isNan_of_truncate? (h : x.truncate? = some n) : x.isNan = false := by
  cases x with
  | nan => cases h
  | infinite => rfl
  | finite => rfl

/-- What has an integer part is a number, whatever that part is. -/
theorem ne_nan_of_truncate? (h : x.truncate? ≠ none) : x ≠ .nan := by
  intro hnan
  rw [hnan] at h
  exact h rfl

/-- Every number that is not infinite has an integer part. -/
theorem truncate?_ne_none (hx : x ≠ .nan) (hfinite : x.isInfinite = false) :
    x.truncate? ≠ none := by
  cases x with
  | nan => exact absurd rfl hx
  | infinite => cases hfinite
  | finite => exact Option.some_ne_none _

-- ====================================================== sign and magnitude

/-- A value is a magnitude with its sign. -/
theorem toRat_eq (x : Binary64) :
    x.toRat = if x.isNegative then -(x.magnitude / unitsPerOne : ℚ)
      else x.magnitude / unitsPerOne := by
  unfold toRat units
  split
  · rw [Int.cast_neg, Int.cast_natCast, neg_div]
  · rw [Int.cast_natCast]

/-- The absolute value is the magnitude, counted in ones. -/
theorem abs_toRat (x : Binary64) : |x.toRat| = x.magnitude / unitsPerOne := by
  have hnonneg : (0 : ℚ) ≤ x.magnitude / unitsPerOne := by positivity
  rw [toRat_eq]
  split
  · rw [abs_neg, abs_of_nonneg hnonneg]
  · exact abs_of_nonneg hnonneg

/-- A magnitude has the 53 bits of its significand and the exponent of
the greatest binade. The bound is kept as a product of powers. -/
theorem magnitude_lt (x : Binary64) {bits : Nat} (hbits : 2045 ≤ bits) :
    x.magnitude < 2 ^ 53 * 2 ^ bits := by
  cases x with
  | nan => exact Nat.mul_pos (by decide) (Nat.two_pow_pos bits)
  | infinite => exact Nat.mul_pos (by decide) (Nat.two_pow_pos bits)
  | finite negative significand exponent canonical =>
      obtain ⟨hsignificand, hexponent, -⟩ := canonical
      calc significand * 2 ^ exponent
          < 2 ^ 53 * 2 ^ exponent :=
            Nat.mul_lt_mul_of_pos_right hsignificand (Nat.two_pow_pos exponent)
        _ ≤ 2 ^ 53 * 2 ^ bits :=
            Nat.mul_le_mul_left _ (Nat.pow_le_pow_right (by decide) (hexponent.trans hbits))

theorem abs_toRat_lt_iff : |x.toRat| < |y.toRat| ↔ x.magnitude < y.magnitude := by
  rw [abs_toRat, abs_toRat, div_lt_div_iff_of_pos_right unitsPerOne_pos_rat]
  exact_mod_cast Iff.rfl

/-- A decimal has the sign that it is written with, also where it is
rounded to zero or to an infinity. -/
theorem isNegative_ofDecimal (negative : Bool) (coefficient : Nat) (exponent : Int) :
    (ofDecimal negative coefficient exponent).isNegative = negative := by
  by_cases hzero : coefficient = 0
  · rw [hzero]
    rfl
  · rw [ofDecimal_eq_ofQuotient negative hzero, ofQuotient, assemble]
    split
    · rfl
    · split <;> rfl

/-- A finite number is made up of its sign and its magnitude. -/
theorem eq_of_magnitude (hx : x.truncate? ≠ none) (hy : y.truncate? ≠ none)
    (hsign : x.isNegative = y.isNegative) (h : x.magnitude = y.magnitude) : x = y := by
  rw [← ofQuotient_magnitude hx Nat.one_pos, ← ofQuotient_magnitude hy Nat.one_pos, hsign, h]

-- ====================================================== integer parts

/-- A quotient that is cut off at the point is past a bound exactly if
it has come to the next integer. -/
theorem lt_tdiv_iff {a c : Int} (hc : 0 < c) (hbound : 0 ≤ bound) :
    bound < a.tdiv c ↔ (bound + 1) * c ≤ a := by
  rcases Int.le_total 0 a with ha | ha
  · rw [Int.tdiv_eq_ediv_of_nonneg ha]
    exact Int.le_ediv_iff_mul_le hc
  · have hquotient : 0 ≤ (-a).tdiv c := Int.tdiv_nonneg (by omega) (Int.le_of_lt hc)
    rw [Int.neg_tdiv] at hquotient
    have hproduct : 0 < (bound + 1) * c := by positivity
    constructor
    · intro h
      omega
    · intro h
      omega

/-- The integer part is what the division of the units leaves when it is
cut off towards zero. -/
theorem truncate?_eq_some (h : x.truncate? = some n) : n = x.units.tdiv unitsPerOne := by
  cases x with
  | nan => cases h
  | infinite => cases h
  | finite => exact (Option.some.inj h).symm

/-- The integer part is past a bound exactly if the value has come to
the next integer. -/
theorem lt_truncate?_iff (h : x.truncate? = some n) (hbound : 0 ≤ bound) :
    bound < n ↔ (bound : ℚ) + 1 ≤ x.toRat := by
  have hunit : (0 : Int) < unitsPerOne := by exact_mod_cast unitsPerOne_pos
  rw [truncate?_eq_some h, lt_tdiv_iff hunit hbound, toRat, le_div_iff₀ unitsPerOne_pos_rat]
  exact_mod_cast Iff.rfl

/-- The integer part is below one exactly if the value is. -/
theorem truncate?_lt_one_iff (h : x.truncate? = some n) : n < 1 ↔ x.toRat < 1 := by
  have hpositive : 0 < n ↔ 1 ≤ x.toRat := by
    simpa using lt_truncate?_iff h (Int.le_refl 0)
  rw [← not_le (a := (1 : ℚ)), ← hpositive]
  omega

end Spreadsheet.Binary64
