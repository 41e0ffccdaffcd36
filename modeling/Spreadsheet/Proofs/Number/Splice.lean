/-
Both ways to write a number write the same text.

# Where they could differ

A result is written by a layout of its own (`displayChars`), and it is put
together from the text that names the number (`splicedChars`). The two agree
on the digits, since both take the shortest decimal that reads back. They
could differ in three places: a named text marks a number without a
fraction, which a result never does; it has an exponent where a result has
none; and its exponent has two digits at least.

# No number without a fraction

Only numbers with a fraction, or from 10^21 on, get as far as the splice. A
decimal whose exponent is not negative stands for a number without a
fraction, also after it was rounded (`isIntegral_ofDecimal`): the spacing of
the numbers around it is a whole one, or it was a number itself. So what is
spliced has places behind its point, or its first digit stands at 10^21 or
above, and the mark never comes into it.

# The exponent

Where the named text has an exponent, the mantissa gives back the digits and
the place of the point (`aroundPoint_mantissa`), and the exponent is read as
the number it was written for (`exponentOf_power`). Written again in either
form, it is the text of the other layout (`splice_write`).
-/
import Spreadsheet.Number.Splice
import Spreadsheet.Proofs.Number.Exponent

namespace Spreadsheet

open Binary64 (ofDecimal unitsPerOne)
open Decimal (Scaled Layout signed padLeft shortest valueOf)

-- ====================================================== whole numbers

namespace Binary64

/-- A whole number is rounded to a whole number: the numbers around it
are multiples of it, or it is a multiple of their spacing and stays as
it is. -/
theorem dvd_roundedUnits (n : Nat) : unitsPerOne ∣ roundedUnits (n * unitsPerOne) 1 := by
  obtain ⟨bits, hbits⟩ : ∃ bits, unitsPerOne = 2 ^ bits := ⟨1074, unitsPerOne_eq⟩
  unfold roundedUnits
  rw [Nat.one_mul, hbits]
  generalize binade (n * 2 ^ bits / 1) = spacing
  rcases Nat.le_total bits spacing with hle | hle
  · exact (Nat.pow_dvd_pow 2 hle).trans (Nat.dvd_mul_left ..)
  · have hdvd : 2 ^ spacing ∣ n * 2 ^ bits := (Nat.pow_dvd_pow 2 hle).trans (Nat.dvd_mul_left ..)
    have hexact : nearestEven (n * 2 ^ bits) (2 ^ spacing) = n * 2 ^ bits / 2 ^ spacing := by
      unfold nearestEven
      rw [Nat.mod_eq_zero_of_dvd hdvd]
      exact if_pos (Nat.two_pow_pos spacing)
    rw [hexact, Nat.div_mul_cancel hdvd]
    exact Nat.dvd_mul_left ..

/-- A decimal without places stands for a number without a fraction, if
for a finite one. -/
theorem isIntegral_ofDecimal {negative : Bool} {coefficient : Nat} {exponent : Int}
    (hcoefficient : coefficient ≠ 0) (hexponent : 0 ≤ exponent)
    (hfinite : (ofDecimal negative coefficient exponent).truncate? ≠ none) :
    (ofDecimal negative coefficient exponent).isIntegral = true := by
  have hplaces : (-exponent).toNat = 0 := by omega
  rw [ofDecimal_eq_ofQuotient _ hcoefficient, hplaces, Nat.pow_zero] at hfinite ⊢
  rcases magnitude_ofQuotient negative (coefficient * 10 ^ exponent.toNat * unitsPerOne) 1 with
    hunits | hinfinite
  · unfold isIntegral
    rw [hunits, beq_iff_eq]
    exact Nat.mod_eq_zero_of_dvd (dvd_roundedUnits _)
  · rw [hinfinite] at hfinite
    exact absurd rfl hfinite

end Binary64

namespace Number

variable {x : Binary64} {s : Scaled} {negative : Bool} {cs : List Char}

-- ====================================================== the mantissa

/-- The digits of a decimal with a point behind the first one, if there
are more. -/
def mantissaOf (s : Scaled) : List Char :=
  match s.digits with
  | first :: second :: rest => first :: '.' :: second :: rest
  | digits => digits

theorem isDigit_of_mem_digits {c : Char} (hc : c ∈ s.digits) : c.isDigit = true :=
  Nat.isDigit_of_mem_toDigits (by decide) (by decide) hc

/-- A mark is none of the digits of a decimal. -/
theorem ne_of_mem_digits {c mark : Char} (hc : c ∈ s.digits) (hmark : mark.isDigit = false) :
    c ≠ mark := by
  rintro rfl
  rw [isDigit_of_mem_digits hc] at hmark
  cases hmark

/-- A sign in front does not bring in the letter of an exponent. -/
theorem not_mem_signed (h : 'e' ∉ cs) (negative : Bool) : 'e' ∉ signed negative cs := by
  cases negative with
  | true => exact fun hmem => h ((List.mem_cons.mp hmem).resolve_left (by decide))
  | false => exact h

/-- A mantissa is a digit, with the other digits behind a point if there
are any. -/
theorem mantissaOf_cases (s : Scaled) :
    ∃ first others, s.digits = first :: others ∧
      mantissaOf s = first :: (if others = [] then [] else '.' :: others) := by
  obtain ⟨first, others, hdigits⟩ := List.exists_cons_of_ne_nil
    (Nat.toDigits_ne_nil : Nat.toDigits 10 s.coefficient ≠ [])
  refine ⟨first, others, hdigits, ?_⟩
  unfold mantissaOf
  rw [Scaled.digits, hdigits]
  cases others with
  | nil => rfl
  | cons second rest => rfl

/-- The digits of a mantissa are those of the decimal: neither its sign
nor its point is a digit. -/
theorem mantissaDigits_mantissaOf (negative : Bool) (s : Scaled) :
    mantissaDigits (signed negative (mantissaOf s)) = s.digits := by
  obtain ⟨first, others, hdigits, hmantissa⟩ := mantissaOf_cases s
  have hall : ∀ c ∈ first :: others, c.isDigit = true := fun c hc =>
    isDigit_of_mem_digits (s := s) (hdigits ▸ hc)
  have hkept : (first :: (if others = [] then [] else '.' :: others)).filter Char.isDigit
      = first :: others := by
    rw [List.filter_cons_of_pos (hall first (List.mem_cons_self ..))]
    cases others with
    | nil => rfl
    | cons second rest =>
        rw [if_neg (List.cons_ne_nil _ _), List.filter_cons_of_neg (by decide),
          List.filter_eq_self.mpr fun c hc => hall c (List.mem_cons_of_mem _ hc)]
  unfold mantissaDigits
  rw [hmantissa, hdigits, ← hkept]
  cases negative with
  | true => exact List.filter_cons_of_neg (by decide)
  | false => rfl

/-- All digits of a mantissa but the first stand behind its point, and
no point is written when there is one digit. -/
theorem mantissaPlaces_mantissaOf (negative : Bool) (s : Scaled) :
    mantissaPlaces (signed negative (mantissaOf s)) = s.digits.length - 1 := by
  obtain ⟨first, others, hdigits, hmantissa⟩ := mantissaOf_cases s
  have hfirst : first ≠ '.' :=
    ne_of_mem_digits (s := s) (hdigits ▸ List.mem_cons_self ..) (by decide)
  have hsign : (signed negative (mantissaOf s)).dropWhile (· ≠ '.')
      = if others = [] then [] else '.' :: others := by
    have hrest : (first :: (if others = [] then [] else '.' :: others)).dropWhile (· ≠ '.')
        = if others = [] then [] else '.' :: others := by
      rw [List.dropWhile_cons_of_pos (by simpa using hfirst)]
      cases others with
      | nil => rfl
      | cons second rest => rfl
    rw [hmantissa]
    cases negative with
    | true => exact (List.dropWhile_cons_of_pos (by decide)).trans hrest
    | false => exact hrest
  unfold mantissaPlaces
  rw [hsign, hdigits]
  cases others with
  | nil => rfl
  | cons second rest => rfl

/-- The sign of a mantissa is the one it was given, because what follows
it starts with a digit. -/
theorem head?_signed_mantissaOf (negative : Bool) (s : Scaled) :
    ((signed negative (mantissaOf s)).head? == some '-') = negative := by
  obtain ⟨first, others, hdigits, hmantissa⟩ := mantissaOf_cases s
  cases negative with
  | true => rfl
  | false =>
      have hfirst : first ≠ '-' :=
        ne_of_mem_digits (s := s) (hdigits ▸ List.mem_cons_self ..) (by decide)
      rw [hmantissa]
      show (some first == some '-') = false
      exact beq_eq_false_iff_ne.mpr fun heq => hfirst (Option.some.inj heq)

/-- The letter does not stand in a mantissa, so the first letter of the
text is that of the exponent. -/
theorem not_mem_mantissaOf (negative : Bool) (s : Scaled) :
    'e' ∉ signed negative (mantissaOf s) := by
  obtain ⟨first, others, hdigits, hmantissa⟩ := mantissaOf_cases s
  have hnone : 'e' ∉ s.digits := fun hmem => ne_of_mem_digits hmem (by decide) rfl
  rw [hdigits, List.mem_cons, not_or] at hnone
  have hrest : 'e' ∉ first :: (if others = [] then [] else '.' :: others) := by
    rw [List.mem_cons, not_or]
    refine ⟨hnone.1, ?_⟩
    split
    · exact List.not_mem_nil
    · exact fun hmem => hnone.2 ((List.mem_cons.mp hmem).resolve_left (by decide))
  rw [hmantissa]
  exact not_mem_signed hrest negative

/-- The mantissa and the exponent of a decimal, written around a point,
are the decimal itself. -/
theorem aroundPoint_mantissa (negative : Bool) (s : Scaled) :
    aroundPoint (signed negative (mantissaOf s)) s.leading
      = signed negative (Layout.display.positional s) := by
  have hlength : 0 < s.digits.length := List.length_pos_of_ne_nil Nat.toDigits_ne_nil
  have hexponent : s.leading - ((s.digits.length - 1 : Nat) : Int) = s.exponent := by
    unfold Scaled.leading
    omega
  unfold aroundPoint
  rw [mantissaDigits_mantissaOf, mantissaPlaces_mantissaOf, head?_signed_mantissaOf, hexponent,
    Scaled.digits, Decimal.valueOf_toDigits]

-- ====================================================== the exponent

/-- A written exponent is read as the number it was written for, zeros
in front included. -/
theorem exponentOf_power (width : Nat) (exponent : Int) :
    exponentOf ((if exponent < 0 then '-' else '+')
      :: padLeft width (Nat.toDigits 10 exponent.natAbs)) = exponent := by
  have hvalue : valueOf (Text.ofChars (padLeft width (Nat.toDigits 10 exponent.natAbs)))
      = exponent.natAbs := by
    rw [Decimal.valueOf_padLeft, Decimal.valueOf_toDigits]
  by_cases hneg : exponent < 0
  · rw [if_pos hneg]
    show -(valueOf _ : Int) = _
    rw [hvalue]
    omega
  · rw [if_neg hneg]
    show (valueOf _ : Int) = _
    rw [hvalue]
    omega

-- ====================================================== the splice

/-- A text without the letter is shown as it is: digits around a point
need no splicing. -/
theorem splice_of_not_mem (h : 'e' ∉ cs) : splice cs = cs := by
  have hnone : cs.dropWhile (· ≠ 'e') = [] := by
    apply List.dropWhile_eq_nil_iff.mpr
    intro c hc
    exact decide_eq_true fun heq => h (heq ▸ hc)
  unfold splice
  dsimp only
  rw [hnone]

/-- A text with the letter is taken apart there. Within the limits its
mantissa is spread around a point, and otherwise its exponent is written
anew. -/
theorem splice_append (h : 'e' ∉ cs) (power : List Char) :
    splice (cs ++ 'e' :: power)
      = if -7 < exponentOf power ∧ exponentOf power < 21 then aroundPoint cs (exponentOf power)
        else cs ++ 'e' :: (if 0 < exponentOf power then '+' else '-')
          :: Nat.toDigits 10 (exponentOf power).natAbs := by
  have hall : ∀ c ∈ cs, decide (c ≠ 'e') = true := fun c hc =>
    decide_eq_true fun heq => h (heq ▸ hc)
  have htake : (cs ++ 'e' :: power).takeWhile (· ≠ 'e') = cs := by
    rw [List.takeWhile_append_of_pos hall, List.takeWhile_cons_of_neg (by decide), List.append_nil]
  have hdrop : (cs ++ 'e' :: power).dropWhile (· ≠ 'e') = 'e' :: power := by
    rw [List.dropWhile_append_of_pos hall, List.dropWhile_cons_of_neg (by decide)]
  unfold splice
  dsimp only
  rw [htake, hdrop]

/-- A decimal with places is written around a point in the same way by
both layouts. -/
theorem positional_literal (h : s.exponent < 0) :
    Layout.literal.positional s = Layout.display.positional s := by
  unfold Layout.positional
  rw [if_neg (Int.not_le.mpr h), if_neg (Int.not_le.mpr h)]

/-- A named decimal is spliced to the decimal as a result shows it,
unless it has no places and its first digit stands below 10^21. -/
theorem splice_write (h : 0 ≤ s.exponent → 21 ≤ s.leading) (negative : Bool) :
    splice (signed negative (Layout.literal.write s))
      = signed negative (Layout.display.write s) := by
  by_cases hnear : -4 ≤ s.leading ∧ s.leading ≤ 15
  · -- no exponent is named, and none is shown
    have hplaces : s.exponent < 0 := by omega
    have hliteral : Layout.literal.write s = Layout.display.positional s :=
      (if_pos hnear).trans (positional_literal hplaces)
    have hplace : -6 ≤ s.leading ∧ s.leading ≤ 20 := by omega
    have hdisplay : Layout.display.write s = Layout.display.positional s := if_pos hplace
    rw [hliteral, hdisplay]
    exact splice_of_not_mem (not_mem_signed (Decimal.not_mem_positional s) negative)
  -- an exponent is named: the result has none, or has it in its own width
  · have hliteral : signed negative (Layout.literal.write s)
        = signed negative (mantissaOf s) ++ 'e' :: (if s.leading < 0 then '-' else '+')
          :: padLeft 2 (Nat.toDigits 10 s.leading.natAbs) := by
      have hwrite : Layout.literal.write s = Layout.literal.exponential s := if_neg hnear
      rw [hwrite]
      cases negative <;> rfl
    rw [hliteral, splice_append (not_mem_mantissaOf negative s), exponentOf_power]
    by_cases hplace : -7 < s.leading ∧ s.leading < 21
    · have hshown : -6 ≤ s.leading ∧ s.leading ≤ 20 := by omega
      have hdisplay : Layout.display.write s = Layout.display.positional s := if_pos hshown
      rw [if_pos hplace, aroundPoint_mantissa, hdisplay]
    · have hfar : s.leading < -6 ∨ ¬ s.leading < 21 := by omega
      have hsign : (if 0 < s.leading then '+' else '-') = if s.leading < 0 then '-' else '+' := by
        by_cases hneg : s.leading < 0
        · rw [if_pos hneg, if_neg (Int.not_lt.mpr (Int.le_of_lt hneg))]
        · rw [if_neg hneg, if_pos (by omega)]
      have hwidth : padLeft 1 (Nat.toDigits 10 s.leading.natAbs)
          = Nat.toDigits 10 s.leading.natAbs := by
        have hlength : 0 < (Nat.toDigits 10 s.leading.natAbs).length :=
          List.length_pos_of_ne_nil Nat.toDigits_ne_nil
        rw [padLeft, Nat.sub_eq_zero_of_le hlength]
        rfl
      have hdisplay : signed negative (Layout.display.exponential s)
          = signed negative (mantissaOf s) ++ 'e' :: (if s.leading < 0 then '-' else '+')
            :: padLeft 1 (Nat.toDigits 10 s.leading.natAbs) := by
        cases negative <;> rfl
      rw [if_neg hplace, Decimal.write_of_far hfar, hdisplay, hsign, hwidth]

-- ====================================================== numbers

/-- What is neither a whole number below 10^21 nor shown as one has
places in its shortest digits, or its first digit stands at 10^21 or
above. So the mark of a whole number is never spliced. -/
theorem leading_of_not_whole (hfinite : x.truncate? ≠ none) (hx : x.magnitude ≠ 0)
    (hwhole : ¬(x.isIntegral = true ∧ x.magnitude < 10 ^ 21 * unitsPerOne))
    (hexponent : 0 ≤ (shortest x).exponent) : 21 ≤ (shortest x).leading := by
  have hread := Decimal.ofDecimal_shortest hfinite hx
  have hintegral : x.isIntegral = true := by
    rw [← hread] at hfinite ⊢
    exact Binary64.isIntegral_ofDecimal
      (Decimal.coefficient_shortest_ne_zero (hread ▸ hfinite) hx) hexponent hfinite
  by_contra hsmall
  refine hwhole ⟨hintegral, ?_⟩
  rw [← magnitude_large, ← Binary64.abs_toRat_lt_iff, abs_large]
  exact (leading_shortest_iff hfinite hx).2.mp (Int.not_le.mp hsmall)

/-- The text that names a finite number other than zero is its shortest
decimal. -/
theorem literal_of_ne_zero (hfinite : x.truncate? ≠ none) (hx : x.magnitude ≠ 0) :
    Decimal.literal x = signed x.isNegative (Layout.literal.write (shortest x)) := by
  cases x with
  | nan => exact absurd rfl hfinite
  | infinite => exact absurd rfl hfinite
  | finite negative significand exponent h =>
      have hsignificand : significand ≠ 0 := fun hzero => hx (by rw [Binary64.magnitude, hzero,
        Nat.zero_mul])
      unfold Decimal.literal
      dsimp only
      rw [if_neg hsignificand]
      rfl

/-- Every number is shown as it is spliced from the text that names
it. -/
theorem splicedChars_eq (x : Binary64) : splicedChars x = displayChars x := by
  cases x with
  | nan => rfl
  | infinite negative => rfl
  | finite negative significand exponent h =>
      generalize hx : Binary64.finite negative significand exponent h = x
      have hfinite : x.truncate? ≠ none := hx ▸ nofun
      have hspliced : splicedChars x
          = if x.isIntegral = true ∧ x.magnitude < Nat.pow 10 21 * unitsPerOne then
              Decimal.integer (x.units.tdiv unitsPerOne)
            else splice (Decimal.literal x) := by
        rw [← hx]
        rfl
      have hshown : displayChars x
          = if x.isIntegral = true ∧ x.magnitude < Nat.pow 10 21 * unitsPerOne then
              Decimal.integer (x.units.tdiv unitsPerOne)
            else signed x.isNegative (Layout.display.write (shortest x)) := by
        rw [← hx]
        rfl
      rw [hspliced, hshown, Nat.pow_eq]
      by_cases hwhole : x.isIntegral = true ∧ x.magnitude < 10 ^ 21 * unitsPerOne
      · rw [if_pos hwhole, if_pos hwhole]
      · rw [if_neg hwhole, if_neg hwhole]
        rcases displayChars_cases hfinite with ⟨hintegral, hsmall, -⟩ | ⟨hne, -⟩
        · exact absurd ⟨hintegral, hsmall⟩ hwhole
        · rw [literal_of_ne_zero hfinite hne]
          exact splice_write (leading_of_not_whole hfinite hne hwhole) x.isNegative

end Number

end Spreadsheet
