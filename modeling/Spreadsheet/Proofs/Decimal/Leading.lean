/-
The place of the first digit.

# Between two powers of ten

A decimal lies between two powers of ten by the place of its first digit
(`Scaled.leading_bounds`). The place is counted from the point: that of a
number from 1 up to 10 is zero.

For the shortest decimal of a number the place can be read off the number
itself. A decimal below a power of ten is rounded to no greater number than
the power is, for rounding keeps the order, and not to the same number if
that one is itself shown at the place of the power
(`leading_shortest_lt_iff`). The two powers that the layout asks about are
shown so, which is a matter of computing their shortest decimals.

# The two forms

The place decides the form in which a result is written: digits around a
point, or an exponent behind a letter (`mem_write_iff`). The letter tells
the two apart, since digits around a point have none (`not_mem_positional`).
-/
import Mathlib
import Spreadsheet.Proofs.Binary64.Monotone
import Spreadsheet.Proofs.Binary64.Value
import Spreadsheet.Proofs.Decimal.Shortest
import Spreadsheet.Proofs.Decimal.Written

namespace Spreadsheet.Decimal

open Binary64 (ofDecimal)

variable {x : Binary64} {s : Scaled} {place : Int}

-- ====================================================== the first digit

/-- A decimal lies between two powers of ten by the place of its first
digit: it is no less than the power of that place, and below the next
one. -/
theorem Scaled.leading_bounds (hs : s.coefficient ≠ 0) :
    (10 : ℚ) ^ s.leading ≤ s.coefficient * 10 ^ s.exponent ∧
      (s.coefficient * 10 ^ s.exponent : ℚ) < 10 ^ (s.leading + 1) := by
  have hten : (10 : ℚ) ≠ 0 := by norm_num
  obtain ⟨length, hlength⟩ : ∃ length, s.digits.length = length + 1 :=
    Nat.exists_eq_succ_of_ne_zero (by simp [Scaled.digits])
  have hleading : s.leading = length + s.exponent := by
    rw [Scaled.leading, hlength]
    push_cast
    ring
  have hupper : s.coefficient < 10 ^ (length + 1) :=
    (Nat.length_toDigits_le_iff (b := 10) (by decide) (Nat.succ_pos _)).mp hlength.le
  have hlower : 10 ^ length ≤ s.coefficient := by
    rcases Nat.eq_zero_or_pos length with hzero | hpos
    · rw [hzero]
      exact Nat.pos_of_ne_zero hs
    · rw [← Nat.not_lt, ← Nat.length_toDigits_le_iff (b := 10) (by decide) hpos]
      exact Nat.not_le.mpr (hlength ▸ Nat.lt_succ_self length)
  have hpower : (0 : ℚ) < 10 ^ s.exponent := by positivity
  rw [hleading]
  constructor
  · rw [zpow_add₀ hten, zpow_natCast]
    apply mul_le_mul_of_nonneg_right _ hpower.le
    exact_mod_cast hlower
  · rw [add_right_comm, zpow_add₀ hten]
    apply mul_lt_mul_of_pos_right _ hpower
    exact_mod_cast hupper

/-- The shortest decimal of a number other than zero has a digit other
than zero, for zero is not read as that number. -/
theorem coefficient_shortest_ne_zero (hfinite : x.truncate? ≠ none) (hx : x.magnitude ≠ 0) :
    (shortest x).coefficient ≠ 0 := by
  intro hzero
  have hread := ofDecimal_shortest hfinite hx
  rw [hzero] at hread
  rw [← hread] at hx
  exact hx (Nat.zero_mul _)

/-- The first digit of a number stands behind a place exactly if the
number is smaller than the power of ten of that place, as long as the
power is shown at its own place. -/
theorem leading_shortest_lt_iff (hfinite : x.truncate? ≠ none) (hx : x.magnitude ≠ 0)
    (hplace : ∀ negative, (ofDecimal negative 1 place).truncate? ≠ none ∧
      (shortest (ofDecimal negative 1 place)).leading = place) :
    (shortest x).leading < place ↔ |x.toRat| < |(ofDecimal false 1 place).toRat| := by
  have hread := ofDecimal_shortest hfinite hx
  have hbounds := Scaled.leading_bounds (coefficient_shortest_ne_zero hfinite hx)
  have hone : ((1 : Nat) : ℚ) * 10 ^ place = 10 ^ place := by rw [Nat.cast_one, one_mul]
  rw [Binary64.abs_toRat_lt_iff]
  -- a smaller exponent puts the number below the place, and a greater one at it or above
  constructor
  · intro hlt
    have hbelow : ((shortest x).coefficient : ℚ) * 10 ^ (shortest x).exponent
        ≤ (1 : Nat) * 10 ^ place := by
      rw [hone]
      exact hbounds.2.le.trans (zpow_le_zpow_right₀ (by norm_num) hlt)
    apply Nat.lt_of_le_of_ne
    · have hle := Binary64.magnitude_ofDecimal_mono x.isNegative hbelow (hplace false).1
      rwa [hread] at hle
    · -- the number would be the one of the place, with its sign
      intro heq
      have hsigns : (ofDecimal false 1 place).magnitude
          = (ofDecimal x.isNegative 1 place).magnitude :=
        Nat.le_antisymm (Binary64.magnitude_ofDecimal_mono _ le_rfl (hplace x.isNegative).1)
          (Binary64.magnitude_ofDecimal_mono _ le_rfl (hplace false).1)
      have hsame : x = ofDecimal x.isNegative 1 place :=
        Binary64.eq_of_magnitude hfinite (hplace x.isNegative).1
          (Binary64.isNegative_ofDecimal _ _ _).symm (heq.trans hsigns)
      have hleading := (hplace x.isNegative).2
      rw [← hsame] at hleading
      omega
  · intro hlt
    by_contra hnot
    have habove : ((1 : Nat) : ℚ) * 10 ^ place
        ≤ (shortest x).coefficient * 10 ^ (shortest x).exponent := by
      rw [hone]
      exact (zpow_le_zpow_right₀ (by norm_num) (not_lt.mp hnot)).trans hbounds.1
    have hlarge : (ofDecimal x.isNegative (shortest x).coefficient (shortest x).exponent).truncate?
        ≠ none := by
      rw [hread]
      exact hfinite
    have hle := Binary64.magnitude_ofDecimal_mono false habove hlarge
    rw [hread] at hle
    omega

-- ====================================================== the two forms

/-- A text in exponent form: a sign or none, a digit other than zero,
behind a point the other digits if there are any, the letter, and an
exponent with its sign and without a zero in front. -/
def InExponentForm (text : Text) : Prop :=
  ∃ (negative below : Bool) (first : Char) (others exponent : List Char),
    text = Text.ofChars (signed negative (first :: (if others = [] then [] else '.' :: others)
      ++ 'e' :: (if below then '-' else '+') :: exponent)) ∧
      (∀ c ∈ first :: (others ++ exponent), c.isDigit = true) ∧ first ≠ '0' ∧
      exponent ≠ [] ∧ exponent.head? ≠ some '0'

/-- The letter of an exponent is no digit. -/
theorem not_mem_of_digits {cs : List Char} (h : Digits (Text.ofChars cs)) : 'e' ∉ cs := by
  intro hmem
  have hletter : Text.isDigit (.char 'e') = false := by decide
  have hdigit := h (.char 'e') (List.mem_map_of_mem hmem)
  rw [hletter] at hdigit
  cases hdigit

/-- Digits around a point have no exponent. The letter is how the two
ways to write a number are told apart. -/
theorem not_mem_positional (s : Scaled) : 'e' ∉ Layout.display.positional s := by
  have hdigits : Digits (Text.ofChars s.digits) := digits_toDigits s.coefficient
  unfold Layout.positional
  split
  · intro hmem
    rw [List.append_assoc, List.mem_append, List.mem_append] at hmem
    rcases hmem with hmem | hmem | hmem
    · exact not_mem_of_digits hdigits hmem
    · exact not_mem_of_digits (digits_zeros _) hmem
    · cases hmem
  · have hpadded : 'e' ∉ padLeft ((-s.exponent).toNat + 1) s.digits :=
      not_mem_of_digits (digits_padLeft hdigits)
    intro hmem
    rcases List.mem_append.mp hmem with hmem | hmem
    · exact hpadded (List.mem_of_mem_take hmem)
    · rcases List.mem_cons.mp hmem with heq | hmem
      · cases heq
      · exact hpadded (List.mem_of_mem_drop hmem)

/-- The exponential layout of a decimal whose exponent is not zero is
the exponent form. -/
theorem inExponentForm_exponential (negative : Bool) (hs : s.coefficient ≠ 0)
    (hleading : s.leading ≠ 0) :
    InExponentForm (Text.ofChars (signed negative (Layout.display.exponential s))) := by
  obtain ⟨first, others, hdigits⟩ := List.exists_cons_of_ne_nil
    (Nat.toDigits_ne_nil : Nat.toDigits 10 s.coefficient ≠ [])
  have hexponent : padLeft Layout.display.exponentWidth (Nat.toDigits 10 s.leading.natAbs)
      = Nat.toDigits 10 s.leading.natAbs := by
    have hlength : 0 < (Nat.toDigits 10 s.leading.natAbs).length :=
      List.length_pos_of_ne_nil Nat.toDigits_ne_nil
    have hnone : Layout.display.exponentWidth - (Nat.toDigits 10 s.leading.natAbs).length = 0 :=
      Nat.sub_eq_zero_of_le hlength
    rw [padLeft, hnone]
    rfl
  refine ⟨negative, decide (s.leading < 0), first, others, Nat.toDigits 10 s.leading.natAbs, ?_, ?_,
    ?_, Nat.toDigits_ne_nil, ?_⟩
  · unfold Layout.exponential
    dsimp only
    rw [hexponent, Scaled.digits, hdigits]
    cases others with
    | nil => simp
    | cons second others => simp
  · intro c hc
    rw [← List.cons_append, ← hdigits, List.mem_append] at hc
    rcases hc with hc | hc
    · exact Nat.isDigit_of_mem_toDigits (by decide) (by decide) hc
    · exact Nat.isDigit_of_mem_toDigits (by decide) (by decide) hc
  · intro hzero
    exact hs (head?_toDigits (by rw [hdigits, hzero]; rfl))
  · intro hzero
    exact hleading (Int.natAbs_eq_zero.mp (head?_toDigits hzero))

/-- A decimal whose first digit is far from the point is a result in
exponent form. -/
theorem write_of_far (h : s.leading < -6 ∨ ¬ s.leading < 21) :
    Layout.display.write s = Layout.display.exponential s := by
  have hfar : ¬ (-6 ≤ s.leading ∧ s.leading ≤ 20) := by omega
  unfold Layout.write
  exact if_neg hfar

/-- The letter stands in the digits of a result exactly if the first one
is far from the point. -/
theorem mem_write_iff (s : Scaled) :
    'e' ∈ Layout.display.write s ↔ s.leading < -6 ∨ ¬ s.leading < 21 := by
  constructor
  · intro hmem
    by_contra hnear
    have hplace : -6 ≤ s.leading ∧ s.leading ≤ 20 := by omega
    have hwrite : Layout.display.write s = Layout.display.positional s := if_pos hplace
    rw [hwrite] at hmem
    exact not_mem_positional s hmem
  · intro hfar
    rw [write_of_far hfar, Layout.exponential]
    exact List.mem_append_right _ (List.mem_cons_self ..)

end Spreadsheet.Decimal
