/-
What is shown for a number, read again.

# One numeral

What is shown for a finite number is a sign and a numeral that stands for it
(`shown_finite`), whether it is written as a whole number, in its shortest
digits around a point, or with an exponent. A whole number below 10^21 is
written out, with zeros that its shortest decimal does not have; both stand
for the same decimal, so the two cases meet again here.

# The forgiving reader

The reader of numbers in front of a text takes the numeral to its end and
reads that number (`inFront?_display`). What is lost is the sign of a zero,
for a whole number is written without one: a zero comes back as the positive
zero, which is equal to the negative one. An infinity is shown by a word,
and the word is read too.
-/
import Spreadsheet.Number.Display
import Spreadsheet.Number.Reading
import Spreadsheet.Proofs.Decimal.Shortest
import Spreadsheet.Proofs.Decimal.Written

namespace Spreadsheet

open Decimal (Numeral Scaled Writes signed shortest)
open Text (dropBlanks)

namespace Number

variable {x : Binary64} {cs : List Char} {s : Scaled}

-- ====================================================== what is read

/-- The numeral in front of a text, as the number it stands for, and
what is left behind it; the word Infinity is a numeral here. -/
def inFront? (text : Text) : Option (Binary64 × Text) :=
  let (negative, body) := Decimal.takeSign (dropBlanks text)
  if (Text.ofString "Infinity").isPrefixOf body then
    some (.infinite negative, body.drop (Text.ofString "Infinity").length)
  else (Numeral.scan body).map fun found => (found.1.toBinary64 negative, found.2)

/-- The forgiving reader takes the numeral in front and drops what is
left. -/
theorem leading?_eq (text : Text) : leading? text = (inFront? text).map Prod.fst := by
  unfold leading? inFront?
  dsimp only
  split
  · rfl
  · rw [Option.map_map]
    rfl

/-- A numeral does not start as the word Infinity does. -/
theorem not_infinity {n : Numeral} (hn : n.Proper) (rest : Text) :
    (Text.ofString "Infinity").isPrefixOf (n.text ++ rest) = false := by
  obtain ⟨c, others, htext, hc⟩ := Numeral.head_text hn
  have hne : c ≠ .char 'I' := Decimal.ne_of_digit_or_point hc (by decide) (by decide)
  have hword : Text.ofString "Infinity" = .char 'I' :: Text.ofString "nfinity" := by rfl
  rw [htext, List.cons_append, hword, List.isPrefixOf_cons_cons, beq_eq_false_iff_ne.mpr hne.symm,
    Bool.false_and]

/-- Of a numeral with its sign nothing is left, and it is read as the
number it stands for. -/
theorem inFront?_signed (negative : Bool) (h : Writes cs s) :
    inFront? (Text.ofChars (signed negative cs))
      = some (Binary64.ofDecimal negative s.coefficient s.exponent, []) := by
  obtain ⟨n, hproper, htext, hvalue⟩ := h
  have hinfinity := not_infinity hproper []
  rw [List.append_nil] at hinfinity
  unfold inFront?
  rw [Decimal.dropBlanks_signed hproper htext, Decimal.takeSign_signed hproper htext]
  dsimp only
  rw [hinfinity, if_neg Bool.false_ne_true, Decimal.Numeral.scan_text hproper, Option.map_some,
    hvalue]

-- ====================================================== what is shown

/-- A zero as it comes back from a text, which has lost its sign, and
any other number as it is. -/
def withoutZeroSign (x : Binary64) : Binary64 :=
  if x.isZero then .zero false else x

/-- A finite number is zero exactly if its magnitude is. Its sign does
not matter, so there are two of them. -/
theorem isZero_iff (hfinite : x.truncate? ≠ none) : x.isZero = true ↔ x.magnitude = 0 := by
  cases x with
  | nan => exact absurd rfl hfinite
  | infinite => exact absurd rfl hfinite
  | finite negative significand exponent h =>
      have hpos := Nat.two_pow_pos exponent
      simp only [Binary64.isZero, Binary64.magnitude, beq_iff_eq, Nat.mul_eq_zero, Nat.pow_eq]
      omega

/-- The integer part of a number without a fraction, in parts: the sign,
and the quotient of the magnitude. -/
theorem tdiv_units {q : Nat} (hq : x.magnitude = Binary64.unitsPerOne * q) :
    x.units.tdiv Binary64.unitsPerOne = if x.isNegative then -(q : Int) else q := by
  have hunit : (Binary64.unitsPerOne : Int) ≠ 0 :=
    Int.natCast_ne_zero.mpr (Nat.ne_of_gt Binary64.unitsPerOne_pos)
  unfold Binary64.units
  rw [hq, Int.natCast_mul]
  split
  · rw [Int.neg_tdiv, Int.mul_tdiv_cancel_left _ hunit]
  · rw [Int.mul_tdiv_cancel_left _ hunit]

/-- A number without a fraction is the one nearest to its integer
part. -/
theorem ofDecimal_whole (hfinite : x.truncate? ≠ none) (hwhole : x.isIntegral = true) :
    Binary64.ofDecimal (decide (x.units.tdiv Binary64.unitsPerOne < 0))
      (x.units.tdiv Binary64.unitsPerOne).natAbs 0 = withoutZeroSign x := by
  obtain ⟨q, hq⟩ : Binary64.unitsPerOne ∣ x.magnitude :=
    Nat.dvd_of_mod_eq_zero (beq_iff_eq.mp hwhole)
  have hzero := isZero_iff hfinite
  have hvalue := Binary64.ofQuotient_magnitude hfinite Nat.one_pos
  have hunit := Binary64.unitsPerOne_pos
  unfold withoutZeroSign
  rw [tdiv_units hq]
  generalize hsign : x.isNegative = negative at hvalue ⊢
  by_cases hq0 : q = 0
  · have hmagnitude : x.isZero = true := hzero.mpr (by rw [hq, hq0, Nat.mul_zero])
    rw [if_pos hmagnitude, hq0]
    cases negative <;> rfl
  · have hmagnitude : ¬ x.isZero = true := by
      rw [hzero, hq]
      exact Nat.mul_ne_zero (Nat.ne_of_gt hunit) hq0
    have habs : (if negative then -(q : Int) else q).natAbs = q := by split <;> omega
    have hneg : decide ((if negative then -(q : Int) else q) < 0) = negative := by
      cases negative
      · simp
      · simp only [if_true, decide_eq_true_eq]
        omega
    rw [if_neg hmagnitude, habs, hneg, Binary64.ofDecimal_eq_ofQuotient _ hq0]
    rw [hq] at hvalue
    conv_rhs => rw [← hvalue]
    rw [Nat.mul_comm Binary64.unitsPerOne q]
    simp

/-- A number is equal to itself without the sign of a zero, and as zero
as that. -/
theorem eq_withoutZeroSign (hx : x ≠ .nan) :
    (withoutZeroSign x).eq x = true ∧ (withoutZeroSign x).isZero = x.isZero := by
  unfold withoutZeroSign
  split
  · next hzero =>
    refine ⟨?_, hzero.symm⟩
    cases x with
    | nan => exact absurd rfl hx
    | infinite => cases hzero
    | finite negative significand exponent h =>
        have hfinite : (Binary64.finite negative significand exponent h).truncate? ≠ none := nofun
        have hmagnitude := (isZero_iff hfinite).mp hzero
        have hunits : (Binary64.finite negative significand exponent h).units = 0 := by
          rw [Binary64.units, hmagnitude]
          split <;> rfl
        have hunits' : (Binary64.zero false).units = 0 := rfl
        unfold Binary64.zero at hunits' ⊢
        simp only [Binary64.eq, Binary64.compare?, hunits, hunits']
        rfl
  · refine ⟨?_, rfl⟩
    cases x with
    | nan => exact absurd rfl hx
    | infinite negative => cases negative <;> rfl
    | finite => simp [Binary64.eq, Binary64.compare?]

/-- A finite number is shown as a whole number, or it is not zero and
shown in its shortest digits. -/
theorem displayChars_cases (hfinite : x.truncate? ≠ none) :
    (x.isIntegral = true ∧ x.magnitude < 10 ^ 21 * Binary64.unitsPerOne ∧
        displayChars x = Decimal.integer (x.units.tdiv Binary64.unitsPerOne)) ∨
      (x.magnitude ≠ 0 ∧
        displayChars x = signed x.isNegative (Decimal.Layout.display.write (shortest x))) := by
  cases x with
  | nan => exact absurd rfl hfinite
  | infinite => exact absurd rfl hfinite
  | finite negative significand exponent h =>
      have hunit := Binary64.unitsPerOne_pos
      unfold displayChars
      dsimp only
      -- or the number of units in one would be written out
      generalize Binary64.unitsPerOne = unit at hunit ⊢
      split
      · next hwhole => exact .inl ⟨hwhole.1, hwhole.2, rfl⟩
      · next hwhole =>
        refine .inr ⟨?_, rfl⟩
        -- a zero has no fraction and is small, so it is not here
        intro hzero
        refine hwhole ⟨?_, ?_⟩
        · rw [Binary64.isIntegral, hzero, Nat.zero_mod]
          rfl
        · rw [hzero]
          exact Nat.mul_pos (Nat.pow_pos (by decide)) hunit

/-- A finite number is shown as a sign and a numeral that stands for
it. -/
theorem shown_finite (hfinite : x.truncate? ≠ none) :
    ∃ negative cs s, displayChars x = signed negative cs ∧ Writes cs s ∧
      Binary64.ofDecimal negative s.coefficient s.exponent = withoutZeroSign x := by
  rcases displayChars_cases hfinite with ⟨hwhole, -, hshown⟩ | ⟨hmagnitude, hshown⟩
  · exact ⟨_, _, ⟨_, 0⟩, hshown, Decimal.writes_toDigits _, ofDecimal_whole hfinite hwhole⟩
  · refine ⟨_, _, shortest _, hshown, Decimal.writes_write rfl _, ?_⟩
    rw [withoutZeroSign, if_neg (mt (isZero_iff hfinite).mp hmagnitude)]
    exact Decimal.ofDecimal_shortest hfinite hmagnitude

/-- The whole text shown for a number is one numeral, and it is read as
that number. -/
theorem inFront?_display (hx : x ≠ .nan) :
    inFront? (display x) = some (withoutZeroSign x, []) := by
  cases x with
  | nan => exact absurd rfl hx
  | infinite negative => cases negative <;> rfl
  | finite negative significand exponent h =>
      obtain ⟨sign, cs, s, hshown, hwrites, hvalue⟩ :=
        shown_finite (x := .finite negative significand exponent h) nofun
      rw [display, hshown, inFront?_signed sign hwrites, hvalue]

/-- The number read from the text shown for a number is that number, but
for the sign of a zero. -/
theorem leading?_display (hx : x ≠ .nan) :
    leading? (display x) = some (withoutZeroSign x) := by
  rw [leading?_eq, inFront?_display hx]
  rfl

end Number

end Spreadsheet
