/-
Where a number is shown with an exponent, and that nothing of it is lost.

# The bounds

The place of the first digit decides whether an exponent is shown, and the
number decides the place. At both ends of the range without an exponent
stands a power of ten that is shown at its own place, so the form comes down
to two comparisons with these numbers (`mem_display_iff`). The power at the
upper end is a number exactly; the one at the lower end is not, and what
counts is the number nearest to it.

Whole numbers below the upper bound are written out and never come to the
layouts. They are one at least, so they are not below the lower bound, and
the two comparisons hold of them as they do of the others
(`leastPlain_lt_of_isIntegral`).

# Reading back

In either form the whole text is one numeral, which is read back as an equal
number (`display_round_trip`).
-/
import Mathlib
import Spreadsheet.Proofs.Decimal.Leading
import Spreadsheet.Proofs.Number.Display

namespace Spreadsheet.Number

open Binary64 (ofDecimal unitsPerOne)
open Decimal (signed shortest)

variable {x : Binary64}

/-- The number 1e-6, which is the least positive one that is shown
without an exponent. -/
def leastPlain : Binary64 := ofDecimal false 1 (-6)

/-- A sign in front is not the letter of an exponent. -/
theorem mem_ofChars_signed {negative : Bool} {cs : List Char} :
    CodePoint.char 'e' ∈ Text.ofChars (signed negative cs) ↔ 'e' ∈ cs := by
  cases negative with
  | false => simp [signed, Text.ofChars]
  | true => simp [signed, Text.ofChars]

-- ====================================================== where an exponent is shown

/-- The number 10^21 is exact. -/
theorem magnitude_large : (ofDecimal false 1 21).magnitude = 10 ^ 21 * unitsPerOne := by
  decide +kernel

theorem abs_large : |(ofDecimal false 1 21).toRat| = 10 ^ 21 := by
  rw [Binary64.abs_toRat, magnitude_large, Nat.cast_mul, Nat.cast_pow, Nat.cast_ofNat]
  exact mul_div_cancel_right₀ _ Binary64.unitsPerOne_pos_rat.ne'

theorem abs_leastPlain : |leastPlain.toRat| = leastPlain.toRat := by
  rw [Binary64.abs_toRat, Binary64.toRat_eq, leastPlain, Binary64.isNegative_ofDecimal]
  rfl

/-- The first digit of a number is far from the point exactly if the
number is below the one bound or not below the other. -/
theorem leading_shortest_iff (hfinite : x.truncate? ≠ none) (hx : x.magnitude ≠ 0) :
    ((shortest x).leading < -6 ↔ |x.toRat| < leastPlain.toRat) ∧
      ((shortest x).leading < 21 ↔ |x.toRat| < 10 ^ 21) := by
  rw [← abs_leastPlain, ← abs_large]
  constructor
  · exact Decimal.leading_shortest_lt_iff hfinite hx (by decide +kernel)
  · exact Decimal.leading_shortest_lt_iff hfinite hx (by decide +kernel)

/-- A whole number other than zero is one at least, so it is not below
the lower bound. -/
theorem leastPlain_lt_of_isIntegral (hwhole : x.isIntegral = true) (hx : x.magnitude ≠ 0) :
    leastPlain.magnitude < x.magnitude := by
  have hone : leastPlain.magnitude < unitsPerOne := by decide +kernel
  have hdvd : unitsPerOne ∣ x.magnitude := Nat.dvd_of_mod_eq_zero (beq_iff_eq.mp hwhole)
  exact Nat.lt_of_lt_of_le hone (Nat.le_of_dvd (Nat.pos_of_ne_zero hx) hdvd)

/-- A finite number is shown with an exponent exactly if it is not zero
and either below the one bound or not below the other. -/
theorem mem_display_iff (hfinite : x.truncate? ≠ none) :
    CodePoint.char 'e' ∈ display x ↔ x.isZero = false ∧
      (|x.toRat| < leastPlain.toRat ∨ 10 ^ 21 ≤ |x.toRat|) := by
  rw [display, ← Bool.not_eq_true, isZero_iff hfinite]
  rcases displayChars_cases hfinite with ⟨hwhole, hsmall, hshown⟩ | ⟨hx, hshown⟩
  · rw [hshown, Decimal.integer, mem_ofChars_signed]
    apply iff_of_false
    · exact Decimal.not_mem_of_digits (Decimal.digits_toDigits _)
    · rintro ⟨hx, hfar⟩
      have hbelow := leastPlain_lt_of_isIntegral hwhole hx
      rw [← magnitude_large] at hsmall
      rw [← Binary64.abs_toRat_lt_iff] at hbelow hsmall
      rw [abs_leastPlain] at hbelow
      rw [abs_large] at hsmall
      rcases hfar with hfar | hfar
      · exact absurd hfar hbelow.not_gt
      · exact absurd hfar hsmall.not_ge
  · obtain ⟨hleast, hmost⟩ := leading_shortest_iff hfinite hx
    rw [hshown, mem_ofChars_signed, Decimal.mem_write_iff, hleast, hmost, not_lt, and_iff_right hx]

/-- A finite number that is shown with an exponent is shown in exponent
form. -/
theorem inExponentForm_display (hfinite : x.truncate? ≠ none)
    (h : CodePoint.char 'e' ∈ display x) : Decimal.InExponentForm (display x) := by
  rw [display] at h ⊢
  rcases displayChars_cases hfinite with ⟨-, -, hshown⟩ | ⟨hx, hshown⟩
  · rw [hshown, Decimal.integer, mem_ofChars_signed] at h
    exact absurd h (Decimal.not_mem_of_digits (Decimal.digits_toDigits _))
  · rw [hshown, mem_ofChars_signed, Decimal.mem_write_iff] at h
    rw [hshown, Decimal.write_of_far h]
    apply Decimal.inExponentForm_exponential
    · exact Decimal.coefficient_shortest_ne_zero hfinite hx
    · omega

-- ====================================================== reading back

/-- The text shown for a number is read back to its end and as an equal
number. The text of a finite number has an exponent exactly if the
number is not zero and either below 1e-6, as a number, or not below
10^21; and then it is in exponent form. -/
theorem display_round_trip (hx : x ≠ .nan) :
    (∃ y, leading? (display x) = some y ∧ inFront? (display x) = some (y, []) ∧ y.eq x = true) ∧
      (x.isInfinite = false →
        (CodePoint.char 'e' ∈ display x ↔ x.isZero = false ∧
          (|x.toRat| < leastPlain.toRat ∨ 10 ^ 21 ≤ |x.toRat|)) ∧
        (CodePoint.char 'e' ∈ display x → Decimal.InExponentForm (display x))) := by
  constructor
  · exact ⟨withoutZeroSign x, leading?_display hx, inFront?_display hx, (eq_withoutZeroSign hx).1⟩
  · intro hinfinite
    have hfinite := Binary64.truncate?_ne_none hx hinfinite
    exact ⟨mem_display_iff hfinite, inExponentForm_display hfinite⟩

/-- A negative number that is smaller than a millionth is shown with an
exponent, and nothing of it is lost. -/
theorem display_round_trip_small :
    display (ofDecimal true 15 (-8)) = Text.ofString "-1.5e-7" ∧
      (∃ y, leading? (display (ofDecimal true 15 (-8))) = some y ∧
        inFront? (display (ofDecimal true 15 (-8))) = some (y, []) ∧
        y.eq (ofDecimal true 15 (-8)) = true) ∧
      Decimal.InExponentForm (display (ofDecimal true 15 (-8))) := by
  have hx : ofDecimal true 15 (-8) ≠ .nan := by decide +kernel
  obtain ⟨hread, hform⟩ := display_round_trip hx
  obtain ⟨-, hexponent⟩ := hform (by decide +kernel)
  exact ⟨by decide +kernel, hread, hexponent (by decide +kernel)⟩

end Spreadsheet.Number
