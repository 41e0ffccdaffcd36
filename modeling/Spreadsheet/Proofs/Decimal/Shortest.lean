/-
The shortest decimal reads back.

# The search

The search goes from coarse grids to fine ones and takes the first point
that reads back as the number (`ofDecimal_of_onGrid`). On each grid it looks
at the points next to the number only. It cannot miss: on the grid of
10^-1074 every finite number is a point itself (`ofDecimal_finest`), because
a unit is a power of two and a power of two divides the power of ten of the
same exponent.

# Down to the finest grid

The search has fuel for a fixed number of grids, and it starts at the place
of the first digit. It gets down to the finest grid, because no positive
number has more zeros after its point than the unit has places
(`neg_le_decade`). So the fuel is never what ends it (`exists_search`).

# Zeros at the end

Zeros stripped from the coefficient go into the exponent and leave the value
as it is, so what comes out reads back too (`ofDecimal_shortest`).
-/
import Spreadsheet.Decimal.Shortest
import Spreadsheet.Proofs.Binary64.Rounding

namespace Spreadsheet.Decimal

open Binary64 (ofDecimal ofQuotient unitsPerOne)

variable {x : Binary64} {num den bits : Nat} {exponent : Int} {s : Scaled}

namespace Shortest

-- ====================================================== grids

/-- A point that is taken from a grid reads back as the number: that was
asked before it was taken. -/
theorem ofDecimal_of_onGrid (h : onGrid x num den exponent = some s) :
    ofDecimal x.isNegative s.coefficient s.exponent = x := by
  unfold onGrid at h
  dsimp only at h
  split at h
  · cases h
  · next hbelow _ =>
    cases h
    exact beq_iff_eq.mp hbelow
  · next _ habove =>
    cases h
    exact beq_iff_eq.mp habove
  · next hbelow habove =>
    split at h
    · cases h
      exact beq_iff_eq.mp hbelow
    · cases h
      exact beq_iff_eq.mp habove

/-- A grid has a point that reads back if the point below the number
does. -/
theorem exists_onGrid (h : ofDecimal x.isNegative
      ((rescale num den exponent).1 / (rescale num den exponent).2) exponent = x) :
    ∃ s, onGrid x num den exponent = some s := by
  unfold onGrid
  simp only [h, beq_self_eq_true]
  split
  · next hbelow _ => cases hbelow
  · exact ⟨_, rfl⟩
  · next hbelow _ => cases hbelow
  · split
    · exact ⟨_, rfl⟩
    · exact ⟨_, rfl⟩

/-- The search finds a point of some grid if it gets down to a grid that
has one. -/
theorem exists_search {fuel : Nat} (k : Nat) (hk : k < fuel)
    (h : ∃ s, onGrid x num den (exponent - k) = some s) :
    ∃ grid, onGrid x num den grid = some (search x num den exponent fuel) := by
  induction fuel generalizing exponent k with
  | zero => omega
  | succ fuel ih =>
      unfold search
      cases hgrid : onGrid x num den exponent with
      | some s => exact ⟨exponent, hgrid⟩
      | none =>
          cases k with
          | zero =>
              obtain ⟨s, hs⟩ := h
              simp [hgrid] at hs
          | succ k =>
              apply ih k (by omega)
              rw [show exponent - 1 - k = exponent - (k + 1 : Nat) by omega]
              exact h

-- ====================================================== the finest grid

/-- Below a fraction of one stand fewer zeros than the denominator has
bits. -/
theorem neg_le_decade (num : Nat) (hden : den = 2 ^ bits) (hbits : 0 < bits) :
    1 - (bits : Int) ≤ decade num den := by
  unfold decade
  split
  · omega
  · have hlt : (den - 1) / num < 10 ^ bits := by
      calc (den - 1) / num ≤ den - 1 := Nat.div_le_self ..
        _ < 2 ^ bits := by
          rw [hden]
          have := Nat.two_pow_pos bits
          omega
        _ ≤ 10 ^ bits := Nat.pow_le_pow_left (by decide) bits
    have hlength := (Nat.length_toDigits_le_iff (b := 10) (by decide) hbits).mpr hlt
    omega

theorem ten_pow (n : Nat) : 10 ^ n = 5 ^ n * 2 ^ n := by
  rw [← Nat.mul_pow]

/-- The point below `num / 2 ^ bits` on the grid of `10 ^ -bits` is that
number. -/
theorem rescale_finest (num bits : Nat) :
    (rescale num (2 ^ bits) (-bits)).1 / (rescale num (2 ^ bits) (-bits)).2
      = num * 5 ^ bits := by
  unfold rescale
  by_cases hbits : bits = 0
  · subst hbits
    simp
  · have hneg : ¬ (0 : Int) ≤ -bits := by omega
    rw [if_neg hneg, Int.neg_neg, Int.toNat_natCast, Nat.pow_eq, ten_pow, ← Nat.mul_assoc]
    exact Nat.mul_div_cancel _ (Nat.two_pow_pos bits)

/-- On the grid of `10 ^ -bits`, where `2 ^ bits` units are one, every
number is a point. -/
theorem ofDecimal_finest (hfinite : x.truncate? ≠ none) (hx : x.magnitude ≠ 0)
    (hunits : unitsPerOne = 2 ^ bits) :
    ofDecimal x.isNegative (x.magnitude * 5 ^ bits) (-bits) = x := by
  have hpos : x.magnitude * 5 ^ bits ≠ 0 := by positivity
  have hexponent : (-(bits : Int)).toNat = 0 := by omega
  rw [Binary64.ofDecimal_eq_ofQuotient _ hpos, Int.neg_neg, Int.toNat_natCast, hexponent, hunits]
  calc ofQuotient x.isNegative (x.magnitude * 5 ^ bits * 10 ^ 0 * 2 ^ bits) (10 ^ bits)
      = ofQuotient x.isNegative (x.magnitude * 1) 1 := by
        apply Binary64.ofQuotient_congr _ (by positivity) (by decide)
        rw [ten_pow bits, Nat.pow_zero]
        ring
    _ = x := Binary64.ofQuotient_magnitude hfinite (by decide)

end Shortest

-- ====================================================== zeros at the end

/-- Stripping zeros leaves the number that is read, by induction on the
zeros. -/
theorem Scaled.ofDecimal_stripZerosFrom (negative : Bool) (s : Scaled) (fuel : Nat) :
    ofDecimal negative (s.stripZerosFrom fuel).coefficient (s.stripZerosFrom fuel).exponent
      = ofDecimal negative s.coefficient s.exponent := by
  induction fuel generalizing s with
  | zero => rfl
  | succ fuel ih =>
      unfold stripZerosFrom
      split
      · next h =>
        rw [ih]
        have hcoefficient : s.coefficient = s.coefficient / 10 * 10 ^ 1 := by omega
        conv_rhs => rw [hcoefficient]
        rw [Binary64.ofDecimal_mul_pow]
        rfl
      · rfl

/-- The shortest decimal of a finite number other than zero reads back
as that number, sign included. -/
theorem ofDecimal_shortest (hfinite : x.truncate? ≠ none) (hx : x.magnitude ≠ 0) :
    ofDecimal x.isNegative (shortest x).coefficient (shortest x).exponent = x := by
  have hunits := Binary64.unitsPerOne_eq
  have hfinest : ∃ s, Shortest.onGrid x x.magnitude unitsPerOne (-(1074 : Nat)) = some s := by
    apply Shortest.exists_onGrid
    rw [hunits, Shortest.rescale_finest]
    exact Shortest.ofDecimal_finest hfinite hx hunits
  have hstart := Shortest.neg_le_decade x.magnitude hunits (by decide)
  unfold shortest Scaled.stripZeros
  rw [Scaled.ofDecimal_stripZerosFrom]
  generalize Shortest.decade x.magnitude unitsPerOne = decade at hstart ⊢
  have hfuel : (decade + 1073).toNat < (decade - 1 + 1075).toNat := by omega
  have hdown : decade - 1 - (decade + 1073).toNat = -(1074 : Nat) := by omega
  obtain ⟨grid, hgrid⟩ := Shortest.exists_search (decade + 1073).toNat hfuel (hdown ▸ hfinest)
  exact Shortest.ofDecimal_of_onGrid hgrid

end Spreadsheet.Decimal
