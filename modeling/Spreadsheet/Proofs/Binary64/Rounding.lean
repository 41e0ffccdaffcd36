/-
Rounding goes by the value alone.

# One value, one number

A number is rounded from a quotient of two naturals, and one value has many
such quotients. All of them are rounded to the same number
(`ofQuotient_congr`): the binade is found from the integer part of the
quotient, which is a matter of its value, and the rest is compared with a
half. The value of a finite number is rounded to that number
(`ofQuotient_magnitude`), since the units of a number with a canonical
spelling leave no rest in their own binade.

# Decimals

For decimals this means that zeros may move from the coefficient into the
exponent (`ofDecimal_mul_pow`). Exponents far out of range take a shortcut,
because the powers of ten would be too large to build. The two shortcuts
agree with rounding: a decimal is at least as large as a power of two that
is out of range (`two_pow_le`), or less than half a unit
(`double_lt_of_log2_le`). So a decimal can be taken for the quotient that it
stands for, whatever its exponent (`ofDecimal_eq_ofQuotient`).
-/
import Mathlib.Tactic.Positivity
import Mathlib.Tactic.Ring
import Spreadsheet.Binary64.Round

namespace Spreadsheet.Binary64

variable {negative : Bool} {num den num' den' significand exponent k : Nat}

-- ====================================================== the nearest integer

/-- A quotient has one nearest integer, whatever denominator it is
written with. -/
theorem nearestEven_mul_right (num den : Nat) (hk : 0 < k) :
    nearestEven (num * k) (den * k) = nearestEven num den := by
  have hdouble : 2 * (num % den * k) = 2 * (num % den) * k := by rw [Nat.mul_assoc]
  unfold nearestEven
  simp only [Nat.mul_div_mul_right num den hk, Nat.mul_mod_mul_right, hdouble,
    Nat.mul_lt_mul_right hk]

theorem nearestEven_mul_self (q : Nat) (hden : 0 < den) : nearestEven (q * den) den = q := by
  unfold nearestEven
  simp [Nat.mul_div_cancel q hden, hden]

-- ====================================================== quotients

/-- One is a power of two units. The power is never evaluated. -/
theorem unitsPerOne_eq : unitsPerOne = 2 ^ 1074 := by
  unfold unitsPerOne
  generalize 1074 = n
  rfl

theorem unitsPerOne_pos : 0 < unitsPerOne := by
  unfold unitsPerOne
  apply Nat.pow_pos
  decide

/-- A quotient is rounded the same when it is written with another
denominator. -/
theorem ofQuotient_mul_right (negative : Bool) (num den : Nat) (hk : 0 < k) :
    ofQuotient negative (num * k) (den * k) = ofQuotient negative num den := by
  unfold ofQuotient
  simp only [Nat.mul_div_mul_right num den hk, Nat.mul_right_comm den k,
    nearestEven_mul_right _ _ hk]

/-- Quotients of one value are rounded to one number: both are brought
to the product of the two denominators. -/
theorem ofQuotient_congr (negative : Bool) (hden : 0 < den) (hden' : 0 < den')
    (h : num * den' = num' * den) :
    ofQuotient negative num den = ofQuotient negative num' den' := by
  calc ofQuotient negative num den
      = ofQuotient negative (num * den') (den * den') :=
        (ofQuotient_mul_right negative num den hden').symm
    _ = ofQuotient negative (num' * den) (den' * den) := by rw [h, Nat.mul_comm den den']
    _ = ofQuotient negative num' den' := ofQuotient_mul_right negative num' den' hden

/-- The binade of a canonical magnitude is its exponent: a normal
significand has 53 bits, and a subnormal one the exponent zero. -/
theorem binade_of_canonical (h : Canonical significand exponent) :
    binade (significand * 2 ^ exponent) = exponent := by
  obtain ⟨hlt, -, hlead⟩ := h
  unfold binade
  rcases hlead with rfl | hlead
  · -- the least binade, where leading bits may be missing
    rcases Nat.eq_zero_or_pos significand with rfl | hpos
    · simp
    · have hlog : significand.log2 < 53 := (Nat.log2_lt (by omega)).mpr (by omega)
      rw [Nat.pow_zero, Nat.mul_one]
      omega
  · have hlog : (significand * 2 ^ exponent).log2 = 52 + exponent := by
      rw [Nat.log2_eq_iff (by positivity), Nat.pow_succ, Nat.pow_add, Nat.mul_right_comm]
      constructor
      · apply Nat.mul_le_mul_right
        omega
      · apply Nat.mul_lt_mul_of_pos_right
        · omega
        · positivity
    omega

/-- A canonical magnitude is rounded to itself, whatever common factor
its quotient is written with. -/
theorem ofQuotient_of_canonical (negative : Bool) (h : Canonical significand exponent)
    (hk : 0 < k) : ofQuotient negative (significand * 2 ^ exponent * k) k
      = .finite negative significand exponent h := by
  have hsignificand :
      nearestEven (significand * 2 ^ exponent * k) (k * 2 ^ exponent) = significand := by
    rw [Nat.mul_assoc, Nat.mul_comm (2 ^ exponent) k]
    exact nearestEven_mul_self significand (by positivity)
  unfold ofQuotient
  simp only [Nat.mul_div_cancel _ hk, binade_of_canonical h, Nat.pow_eq, hsignificand]
  rw [assemble, dif_pos h]

/-- The magnitude of a finite number is rounded to that number, so
rounding takes back what reading off the magnitude has lost. -/
theorem ofQuotient_magnitude {x : Binary64} (hx : x.truncate? ≠ none) (hk : 0 < k) :
    ofQuotient x.isNegative (x.magnitude * k) k = x := by
  cases x with
  | nan => exact absurd rfl hx
  | infinite => exact absurd rfl hx
  | finite negative significand exponent h => exact ofQuotient_of_canonical negative h hk

/-- What is assembled from a significand and an exponent is a number. -/
theorem assemble_ne_nan (negative : Bool) (significand exponent : Nat) :
    assemble negative significand exponent ≠ .nan := by
  unfold assemble
  split
  · nofun
  · split <;> nofun

/-- A quotient is always rounded to a number, which may be infinite. -/
theorem ofQuotient_ne_nan (negative : Bool) (num den : Nat) :
    ofQuotient negative num den ≠ .nan := by
  unfold ofQuotient
  exact assemble_ne_nan _ _ _

-- ====================================================== decimals

/-- A decimal has at least three bits for each place of its exponent,
beside those of one. So a long exponent is out of range before its power
of ten is ever computed. -/
theorem two_pow_le {coefficient : Nat} (hpos : coefficient ≠ 0) (places : Nat) :
    2 ^ (3 * places + 1074) ≤ coefficient * 10 ^ places * unitsPerOne := by
  rw [unitsPerOne_eq]
  generalize 1074 = bits
  calc 2 ^ (3 * places + bits) = 8 ^ places * 2 ^ bits := by rw [Nat.pow_add, Nat.pow_mul]
    _ ≤ 10 ^ places * 2 ^ bits :=
        Nat.mul_le_mul_right _ (Nat.pow_le_pow_left (by decide) places)
    _ ≤ coefficient * 10 ^ places * 2 ^ bits :=
        Nat.mul_le_mul_right _ (Nat.le_mul_of_pos_left _ (Nat.pos_of_ne_zero hpos))

/-- A decimal far below half a unit, by the bits of its coefficient. It
is rounded to zero without the power of ten being computed. -/
theorem double_lt_of_log2_le {coefficient places : Nat}
    (h : coefficient.log2 + 1076 ≤ 3 * places) :
    2 * (coefficient * unitsPerOne) < 10 ^ places := by
  rw [unitsPerOne_eq]
  calc 2 * (coefficient * 2 ^ 1074) < 2 * (2 ^ (coefficient.log2 + 1) * 2 ^ 1074) := by
        have hlog : coefficient < 2 ^ (coefficient.log2 + 1) := Nat.lt_log2_self
        have hunits := Nat.mul_lt_mul_of_pos_right hlog (Nat.two_pow_pos 1074)
        omega
    _ = 2 ^ (coefficient.log2 + 1076) := by
        rw [← Nat.pow_add, ← Nat.pow_succ']
    _ ≤ 2 ^ (3 * places) := Nat.pow_le_pow_right (by decide) h
    _ = 8 ^ places := Nat.pow_mul 2 3 places
    _ ≤ 10 ^ places := Nat.pow_le_pow_left (by decide) places

/-- A quotient below half a unit is rounded to zero, with the sign it
has. -/
theorem ofQuotient_of_lt (negative : Bool) (h : 2 * num < den) :
    ofQuotient negative num den = zero negative := by
  have hquotient : num / den = 0 := Nat.div_eq_of_lt (by omega)
  have hremainder : num % den = num := Nat.mod_eq_of_lt (by omega)
  have hbinade : binade 0 = 0 := by decide
  unfold ofQuotient nearestEven
  simp only [hquotient, hbinade, Nat.pow_eq, Nat.pow_zero, Nat.mul_one, hremainder, if_pos h]
  rfl

/-- A whole number of units with too many bits is out of range: its
binade is above every exponent that a double has. -/
theorem ofQuotient_of_le (negative : Bool) {bits : Nat} (hbits : 2098 ≤ bits)
    (h : 2 ^ bits ≤ num) : ofQuotient negative num 1 = .infinite negative := by
  have hpos : 0 < num := Nat.lt_of_lt_of_le (Nat.two_pow_pos bits) h
  have hlog : bits ≤ num.log2 := (Nat.le_log2 (Nat.ne_of_gt hpos)).mpr h
  have hbinade : 2045 < binade (num / 1) := by
    rw [Nat.div_one, binade]
    omega
  unfold ofQuotient
  dsimp only
  generalize binade (num / 1) = exponent at hbinade ⊢
  have hcanonical : ∀ significand, ¬ Canonical significand exponent := by
    rintro significand ⟨-, hle, -⟩
    omega
  rw [assemble, dif_neg (hcanonical _), dif_neg]
  rintro ⟨-, hlt⟩
  omega

/-- A decimal is rounded like the quotient that it stands for, its
exponent out of range or not. -/
theorem ofDecimal_eq_ofQuotient (negative : Bool) {coefficient : Nat} (hpos : coefficient ≠ 0)
    (exponent : Int) :
    ofDecimal negative coefficient exponent
      = ofQuotient negative (coefficient * 10 ^ exponent.toNat * unitsPerOne)
          (10 ^ (-exponent).toNat) := by
  unfold ofDecimal
  rw [if_neg hpos]
  by_cases hexponent : 0 ≤ exponent
  · have hone : (-exponent).toNat = 0 := by omega
    rw [if_pos hexponent, hone, Nat.pow_zero]
    by_cases hlarge : 400 < exponent
    · rw [if_pos hlarge]
      symm
      exact ofQuotient_of_le negative (by omega) (two_pow_le hpos exponent.toNat)
    · rw [if_neg hlarge]
      rfl
  · have hone : exponent.toNat = 0 := by omega
    rw [if_neg hexponent, hone, Nat.pow_zero, Nat.mul_one]
    dsimp only
    generalize (-exponent).toNat = places
    by_cases hsmall : coefficient.log2 + 1076 ≤ 3 * places
    · rw [if_pos hsmall]
      symm
      apply ofQuotient_of_lt
      exact double_lt_of_log2_le hsmall
    · rw [if_neg hsmall]
      rfl

/-- Zeros at the end of a coefficient may as well be counted in the
exponent. -/
theorem ofDecimal_mul_pow (negative : Bool) (coefficient zeros : Nat) (exponent : Int) :
    ofDecimal negative (coefficient * 10 ^ zeros) exponent
      = ofDecimal negative coefficient (exponent + zeros) := by
  by_cases hzero : coefficient = 0
  · rw [hzero, Nat.zero_mul]
    rfl
  · have hpos : coefficient * 10 ^ zeros ≠ 0 := by positivity
    rw [ofDecimal_eq_ofQuotient negative hpos, ofDecimal_eq_ofQuotient negative hzero]
    apply ofQuotient_congr negative (by positivity) (by positivity)
    -- both sides have the same power of ten once the denominators are crossed
    have hpower : 10 ^ zeros * 10 ^ exponent.toNat * 10 ^ (-(exponent + zeros)).toNat
        = 10 ^ (exponent + zeros).toNat * 10 ^ (-exponent).toNat := by
      rw [← Nat.pow_add, ← Nat.pow_add, ← Nat.pow_add]
      congr 1
      omega
    calc coefficient * 10 ^ zeros * 10 ^ exponent.toNat * unitsPerOne
          * 10 ^ (-(exponent + zeros)).toNat
        = coefficient * unitsPerOne
          * (10 ^ zeros * 10 ^ exponent.toNat * 10 ^ (-(exponent + zeros)).toNat) := by ring
      _ = coefficient * 10 ^ (exponent + zeros).toNat * unitsPerOne
          * 10 ^ (-exponent).toNat := by
        rw [hpower]
        ring

/-- A decimal is always rounded to a number, which may be infinite. -/
theorem ofDecimal_ne_nan (negative : Bool) (coefficient : Nat) (exponent : Int) :
    ofDecimal negative coefficient exponent ≠ .nan := by
  by_cases hzero : coefficient = 0
  · rw [hzero]
    nofun
  · rw [ofDecimal_eq_ofQuotient negative hzero]
    exact ofQuotient_ne_nan _ _ _

end Spreadsheet.Binary64
