/-
What ROUND shows, and what is shown for a zero.

# The nearest numeral

ROUND takes a finite number exactly, and up to a hundred places it always
gives a text: a numeral with just these places that is as near to the number
as one can be, and of two that are equally near the one farther from zero
(`round_nearest`). The number is compared as the rational number that it
stands for, so a number that only looks as if it were in the middle is
rounded to the side on which it lies.

# The sign of a zero

The sign of the number is written whatever the digits are. So a negative
number that is rounded to zero shows a zero with a minus sign, which the
display of a result never does (`negative_zero_shown_iff`). A number is
rounded to zero exactly if it is smaller than half of the last place
(`roundedValue_eq_zero_iff`); at the half itself it goes away from zero.

# A zero on display

Every result that reads as zero is zero, and is shown without a sign
(`display_of_rational?_eq_zero`). A text that is shown is read back as a
number equal to the one it was shown for, so no other number can read as
zero.
-/
import Mathlib
import Spreadsheet.Eval.Formula
import Spreadsheet.Proofs.Decimal.Fixed
import Spreadsheet.Proofs.Number.Display
import Spreadsheet.Proofs.Outcome

namespace Spreadsheet

open Binary64 (unitsPerOne unitsPerOne_pos unitsPerOne_pos_rat)
open Decimal (HasPlaces Numeral rational? fixedDigits nearestUp signed)

variable {x : Binary64} {digits : Nat} {shown : Text}

namespace Number

-- ====================================================== the rounded value

/-- The magnitude that is shown for a number with so many digits behind
the point. -/
def roundedMagnitude (digits : Nat) (x : Binary64) : ℚ :=
  nearestUp (x.magnitude * 10 ^ digits) unitsPerOne / 10 ^ digits

/-- A magnitude counted in the last of some places. -/
theorem magnitude_in_places (digits : Nat) (x : Binary64) :
    ((x.magnitude * 10 ^ digits : Nat) / unitsPerOne : ℚ) = |x.toRat| * 10 ^ digits := by
  rw [Binary64.abs_toRat, Nat.cast_mul, Nat.cast_pow, Nat.cast_ofNat]
  ring

/-- The magnitude that is shown is off by half of the last place at
most, and a number in the middle goes away from zero. -/
theorem roundedMagnitude_near (digits : Nat) (x : Binary64) :
    |roundedMagnitude digits x - (|x.toRat|)| ≤ 1 / (2 * 10 ^ digits) ∧
      ∀ k : Int, |x.toRat| = (k + 1 / 2) / 10 ^ digits → |x.toRat| < roundedMagnitude digits x := by
  have hpower : (0 : ℚ) < 10 ^ digits := by positivity
  obtain ⟨hnear, hupper⟩ := Decimal.nearestUp_near (x.magnitude * 10 ^ digits) unitsPerOne_pos
  rw [magnitude_in_places] at hnear hupper
  unfold roundedMagnitude
  generalize nearestUp (x.magnitude * 10 ^ digits) unitsPerOne = count at hnear hupper ⊢
  constructor
  · have hscale : (count / 10 ^ digits - |x.toRat| : ℚ)
        = (count - |x.toRat| * 10 ^ digits) / 10 ^ digits := by
      rw [sub_div, mul_div_cancel_right₀ _ hpower.ne']
    rw [hscale, abs_div, abs_of_pos hpower, div_le_div_iff₀ hpower (by positivity)]
    linarith [mul_le_mul_of_nonneg_right hnear hpower.le]
  · intro k hmiddle
    rw [lt_div_iff₀ hpower]
    apply hupper k
    rw [hmiddle, div_mul_cancel₀ _ hpower.ne']

/-- The value that is shown, which has the sign of the number. -/
def roundedValue (digits : Nat) (x : Binary64) : ℚ :=
  if x.isNegative then -roundedMagnitude digits x else roundedMagnitude digits x

theorem abs_roundedValue (digits : Nat) (x : Binary64) :
    |roundedValue digits x| = roundedMagnitude digits x := by
  have hnonneg : 0 ≤ roundedMagnitude digits x := by
    unfold roundedMagnitude
    positivity
  unfold roundedValue
  split
  · rw [abs_neg, abs_of_nonneg hnonneg]
  · exact abs_of_nonneg hnonneg

/-- The value that is shown is off by half of the last place at most,
and a number in the middle goes away from zero, whatever its sign is. -/
theorem roundedValue_near (digits : Nat) (x : Binary64) :
    |roundedValue digits x - x.toRat| ≤ 1 / (2 * 10 ^ digits) ∧
      ∀ k : Int, x.toRat = (k + 1 / 2) / 10 ^ digits → |x.toRat| < |roundedValue digits x| := by
  obtain ⟨hnear, hmiddle⟩ := roundedMagnitude_near digits x
  constructor
  · -- the sign is on both, so the magnitudes are as far apart
    rw [Binary64.abs_toRat] at hnear
    rw [roundedValue, Binary64.toRat_eq]
    cases x.isNegative with
    | false => exact hnear
    | true =>
        rw [if_pos rfl, if_pos rfl, neg_sub_neg, abs_sub_comm]
        exact hnear
  · intro k hk
    rw [abs_roundedValue]
    rcases abs_choice x.toRat with hsign | hsign
    · exact hmiddle k (hsign.trans hk)
    · apply hmiddle (-k - 1)
      rw [hsign, hk]
      push_cast
      ring

/-- Nothing but zeros is shown exactly below half of the last place.
Half of it is rounded away from zero, so it is shown. -/
theorem roundedValue_eq_zero_iff (digits : Nat) (x : Binary64) :
    roundedValue digits x = 0 ↔ |x.toRat| < 1 / (2 * 10 ^ digits) := by
  have hpower : (0 : ℚ) < 10 ^ digits := by positivity
  have hzero : roundedValue digits x = 0
      ↔ nearestUp (x.magnitude * 10 ^ digits) unitsPerOne = 0 := by
    rw [← abs_eq_zero, abs_roundedValue, roundedMagnitude, div_eq_zero_iff,
      or_iff_left hpower.ne', Nat.cast_eq_zero]
  have hvalue : 2 * (x.magnitude * 10 ^ digits) < unitsPerOne
      ↔ (2 * ((x.magnitude * 10 ^ digits : Nat) / unitsPerOne) : ℚ) < 1 := by
    rw [← mul_div_assoc, div_lt_one unitsPerOne_pos_rat]
    exact_mod_cast Iff.rfl
  rw [hzero, Decimal.nearestUp_eq_zero_iff _ unitsPerOne_pos, hvalue, magnitude_in_places,
    lt_div_iff₀ (by positivity)]
  constructor
  · intro h
    linarith
  · intro h
    linarith

/-- Up to a hundred places a finite number has a text with just these
places. -/
theorem exists_rounded? (hfinite : x.truncate? ≠ none) (hdigits : digits ≤ 100) :
    ∃ shown, rounded? digits x = some shown ∧ HasPlaces digits shown ∧
      (shown.head? = some (.char '-') ↔ x.isNegative = true) ∧
      rational? shown = some (roundedValue digits x) := by
  generalize hcount : nearestUp (x.magnitude * 10 ^ digits) unitsPerOne = count
  have hfixed := Decimal.fixed?_eq x hdigits
  rw [hcount] at hfixed
  refine ⟨Text.ofChars (signed x.isNegative (fixedDigits digits count)), ?_,
    Decimal.hasPlaces_fixedDigits _ _ _, Decimal.head?_fixedDigits _ _ _, ?_⟩
  · cases x with
    | nan => exact absurd rfl hfinite
    | infinite => exact absurd rfl hfinite
    | finite => rw [rounded?, hfixed, Option.map_some]
  · rw [Decimal.rational?_fixedDigits, roundedValue, roundedMagnitude, hcount]

-- ====================================================== zeros on display

/-- A zero is shown as one digit, and its sign is not shown. -/
theorem display_of_isZero (h : x.isZero = true) : display x = Text.ofString "0" := by
  cases x with
  | nan => cases h
  | infinite => cases h
  | finite negative significand exponent canonical =>
      have hsignificand : significand = 0 := beq_iff_eq.mp h
      have hexponent : exponent = 0 := by
        obtain ⟨-, -, hzero | hlead⟩ := canonical
        · exact hzero
        · omega
      have hzero : ∀ sign, display (.zero sign) = Text.ofString "0" := by decide +kernel
      subst hsignificand hexponent
      exact hzero negative

/-- What is shown as zero is zero: a number that is not has a digit
other than zero in what is shown of it. -/
theorem isZero_of_rational?_display (hfinite : x.truncate? ≠ none)
    (h : rational? (display x) = some 0) : x.isZero = true := by
  obtain ⟨sign, cs, s, hshown, ⟨n, hproper, htext, hvalue⟩, hreads⟩ := shown_finite hfinite
  rw [display, hshown, Decimal.rational?_signed sign hproper htext] at h
  have hrat : n.toRat = 0 := by
    cases sign with
    | false => exact Option.some.inj h
    | true => exact neg_eq_zero.mp (Option.some.inj h)
  have hzero : withoutZeroSign x = .zero sign := by
    rw [← hreads, ← hvalue, Numeral.toBinary64, Numeral.valueOf_eq_zero hrat]
    rfl
  unfold withoutZeroSign at hzero
  split at hzero
  · assumption
  · rw [hzero]
    rfl

/-- Whatever is shown as zero is zero, and it is shown without a
sign. -/
theorem display_of_rational?_eq_zero (h : rational? (display x) = some 0) :
    display x = Text.ofString "0" := by
  cases x with
  | nan => cases h
  | infinite negative => cases negative <;> cases h
  | finite => exact display_of_isZero (isZero_of_rational?_display (Option.some_ne_none _) h)

end Number

namespace Eval

variable {env : Environment} {value places : Expr} {q : Binary64}

-- ====================================================== rounding

/-- ROUND gives the text of the number with so many places, where its
arguments have values and the places are in bounds. -/
theorem call_round (hvalue : number env value = .ok x) (hx : x ≠ .nan)
    (hplaces : number env places = .ok q) (hq : q.truncate? = some (digits : Int))
    (hdigits : digits ≤ 100) (hshown : Number.rounded? digits x = some shown) :
    call env .round [value, places] = .ok (.text shown) := by
  have hrange : ¬ ((digits : Int) < 0 ∨ 100 < (digits : Int)) := by omega
  rw [call, hvalue, orMissing, ok_bind, hplaces, orMissing, ok_bind, roundText]
  simp only [Binary64.isNan_of_ne hx, Binary64.isNan_of_truncate? hq, Bool.or_false,
    Bool.false_eq_true, if_false, hq, if_neg hrange, Int.toNat_natCast, hshown]

/-- ROUND of a finite number to at most a hundred places gives a numeral
with just these places that is off by half of the last place at most; a
number in the middle goes away from zero. -/
theorem round_nearest (hvalue : number env value = .ok x) (hfinite : x.truncate? ≠ none)
    (hplaces : number env places = .ok q) (hq : q.truncate? = some (digits : Int))
    (hdigits : digits ≤ 100) :
    ∃ shown d, call env .round [value, places] = .ok (.text shown) ∧ HasPlaces digits shown ∧
      rational? shown = some d ∧ |d - x.toRat| ≤ 1 / (2 * 10 ^ digits) ∧
      ∀ k : Int, x.toRat = (k + 1 / 2) / 10 ^ digits → |x.toRat| < |d| := by
  have hx := Binary64.ne_nan_of_truncate? hfinite
  obtain ⟨shown, hshown, hform, -, hexact⟩ := Number.exists_rounded? hfinite hdigits
  obtain ⟨hnear, hmiddle⟩ := Number.roundedValue_near digits x
  have hcall := call_round hvalue hx hplaces hq hdigits hshown
  exact ⟨shown, _, hcall, hform, hexact, hnear, hmiddle⟩

/-- The number minus two and a half lies in the middle of two numerals
without places. -/
theorem round_nearest_middle :
    ∃ shown d, call (.ofStore .empty { now := default }) .round
        [.unary .minus (.number "2.5"), .number "0"] = .ok (.text shown) ∧
      HasPlaces 0 shown ∧ rational? shown = some d ∧
      |d - (Binary64.ofDecimal true 25 (-1)).toRat| ≤ 1 / (2 * 10 ^ 0) ∧
      ∀ k : Int, (Binary64.ofDecimal true 25 (-1)).toRat = (k + 1 / 2) / 10 ^ 0 →
        |(Binary64.ofDecimal true 25 (-1)).toRat| < |d| := by
  have hvalue : number (.ofStore .empty { now := default }) (.unary .minus (.number "2.5"))
      = .ok (Binary64.ofDecimal true 25 (-1)) := by
    rw [number, number]
    exact toOption_eq_some.mp (by decide +kernel)
  have hplaces : number (.ofStore .empty { now := default }) (.number "0")
      = .ok (Binary64.ofDecimal false 0 0) := by
    rw [number]
    exact toOption_eq_some.mp (by decide +kernel)
  exact round_nearest hvalue (by decide +kernel) hplaces (by decide +kernel) (by decide)

-- ====================================================== the sign of a zero

/-- The text shows a zero with a minus sign. -/
def ShowsNegativeZero (shown : Text) : Prop :=
  shown.head? = some (.char '-') ∧ rational? shown = some 0

/-- No result is shown as a zero with a sign. -/
theorem not_showsNegativeZero_display (x : Binary64) :
    ¬ ShowsNegativeZero (Number.display x) := by
  rintro ⟨hminus, hzero⟩
  rw [Number.display_of_rational?_eq_zero hzero] at hminus
  cases hminus

/-- A number that is shown as the result of a formula shows no sign on a
zero, and every zero is the same text. With places, by ROUND, a zero
shows a minus sign exactly if the number is negative and smaller than
half of the last place. -/
theorem negative_zero_shown_iff (hvalue : number env value = .ok x)
    (hplaces : number env places = .ok q) (hq : q.truncate? = some (digits : Int))
    (hdigits : digits ≤ 100) :
    ¬ ShowsNegativeZero (Number.display x) ∧
      (rational? (Number.display x) = some 0 → Number.display x = Text.ofString "0") ∧
      (x ≠ .nan → ∃ shown, call env .round [value, places] = .ok (.text shown) ∧
        (ShowsNegativeZero shown ↔ x.isNegative = true ∧ x.isInfinite = false ∧
          |x.toRat| < 1 / (2 * 10 ^ digits))) := by
  refine ⟨not_showsNegativeZero_display x, Number.display_of_rational?_eq_zero, ?_⟩
  intro hx
  by_cases hinfinite : x.isInfinite = true
  · have hshown : Number.rounded? digits x = some (Number.display x) := by
      cases x with
      | nan => rfl
      | infinite => rfl
      | finite => cases hinfinite
    refine ⟨_, call_round hvalue hx hplaces hq hdigits hshown, ?_⟩
    exact iff_of_false (not_showsNegativeZero_display x) (by simp [hinfinite])
  · have hfinite := Binary64.truncate?_ne_none hx (Bool.not_eq_true _ ▸ hinfinite)
    obtain ⟨shown, hshown, -, hminus, hexact⟩ := Number.exists_rounded? hfinite hdigits
    refine ⟨shown, call_round hvalue hx hplaces hq hdigits hshown, ?_⟩
    rw [ShowsNegativeZero, hminus, hexact, Option.some_inj, Number.roundedValue_eq_zero_iff]
    simp [hinfinite]

/-- A number that is too small for two places, with its sign. -/
theorem negative_zero_shown_thousandth :
    ¬ ShowsNegativeZero (Number.display (Binary64.ofDecimal true 1 (-3))) ∧
      ∃ shown, call (.ofStore .empty { now := default }) .round
        [.unary .minus (.number "0.001"), .number "2"] = .ok (.text shown) ∧
        (ShowsNegativeZero shown ↔ (Binary64.ofDecimal true 1 (-3)).isNegative = true ∧
          (Binary64.ofDecimal true 1 (-3)).isInfinite = false ∧
          |(Binary64.ofDecimal true 1 (-3)).toRat| < 1 / (2 * 10 ^ 2)) := by
  have hvalue : number (.ofStore .empty { now := default }) (.unary .minus (.number "0.001"))
      = .ok (Binary64.ofDecimal true 1 (-3)) := by
    rw [number, number]
    exact toOption_eq_some.mp (by decide +kernel)
  have hplaces : number (.ofStore .empty { now := default }) (.number "2")
      = .ok (Binary64.ofDecimal false 2 0) := by
    rw [number]
    exact toOption_eq_some.mp (by decide +kernel)
  have hdigits : (Binary64.ofDecimal false 2 0).truncate? = some ((2 : Nat) : Int) := by
    decide +kernel
  obtain ⟨hdisplay, -, hround⟩ := negative_zero_shown_iff hvalue hplaces hdigits (by decide)
  exact ⟨hdisplay, hround (by decide +kernel)⟩

/-- A cell shows a zero with a minus sign. -/
theorem negative_zero_of_round :
    (evaluateText (.ofStore .empty { now := default }) "=ROUND(-0.001,2)").plain = "-0.00" ∧
      ShowsNegativeZero "-0.00" := by
  refine ⟨by decide +kernel, rfl, ?_⟩
  decide +kernel

end Eval

end Spreadsheet
