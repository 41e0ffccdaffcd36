/-
Rounding keeps the order.

# Within a binade and across

The quotient is rounded to the spacing of its binade. Within a binade the
nearest integers are in the order of the quotients (`nearestEven_mono`),
although a tie may be rounded up in one and down in the other. A quotient of
a lower binade stays below the least number of the next one
(`roundedUnits_le`), and one of a higher binade does not fall below its own
(`le_roundedUnits`). With both, rounding keeps the order of any two
quotients (`roundedUnits_mono`).

# Numbers in range

Rounded units need not be a number: beyond the greatest binade the result is
infinite, and an infinity has no magnitude to compare. Therefore the lemmas
about numbers ask that the greater of the two is finite, and then the
smaller one is finite as well.

# What this closes

Of two decimals the greater one has the greater magnitude, as long as that
one is in range (`magnitude_ofDecimal_mono`). The place of the first digit
of a result is found by it: a decimal below a power of ten is read as a
number no greater than that power.
-/
import Mathlib
import Spreadsheet.Proofs.Binary64.Rounding

namespace Spreadsheet.Binary64

variable {negative' : Bool} {num den num' den' significand exponent : Nat}

-- ====================================================== the nearest integer

/-- The nearest integer is no less than the integer part, since rounding
either leaves that or takes the next one. -/
theorem div_le_nearestEven (num den : Nat) : num / den ≤ nearestEven num den := by
  unfold nearestEven
  dsimp only
  split
  · exact Nat.le_refl _
  · split
    · exact Nat.le_succ _
    · exact Nat.le_add_right _ _

/-- The nearest integer is the integer part or the one after it: ties
are decided between these two. -/
theorem nearestEven_le (num den : Nat) : nearestEven num den ≤ num / den + 1 := by
  unfold nearestEven
  dsimp only
  split
  · exact Nat.le_succ _
  · split
    · exact Nat.le_refl _
    · omega

/-- A greater quotient has no smaller integer part. The quotients are
compared by cross products, as no fraction is ever formed. -/
theorem div_le_div_of_mul_le (hden : 0 < den) (hden' : 0 < den') (h : num * den' ≤ num' * den) :
    num / den ≤ num' / den' := by
  rw [Nat.le_div_iff_mul_le hden']
  apply Nat.le_of_mul_le_mul_right _ hden
  calc num / den * den' * den
      = num / den * den * den' := Nat.mul_right_comm ..
    _ ≤ num * den' := Nat.mul_le_mul_right _ (Nat.div_mul_le_self num den)
    _ ≤ num' * den := h

/-- A greater quotient has no smaller nearest integer. Where both have
the same integer part the rests decide, and of equal rests both go the
same way. -/
theorem nearestEven_mono (hden : 0 < den) (hden' : 0 < den') (h : num * den' ≤ num' * den) :
    nearestEven num den ≤ nearestEven num' den' := by
  rcases Nat.lt_or_eq_of_le (div_le_div_of_mul_le hden hden' h) with hlt | heq
  · calc nearestEven num den
        ≤ num / den + 1 := nearestEven_le num den
      _ ≤ num' / den' := hlt
      _ ≤ nearestEven num' den' := div_le_nearestEven num' den'
  · -- the same integer part, so the remainders are in the order of the quotients
    have hremainder : num % den * den' ≤ num' % den' * den := by
      have hnum := Nat.div_add_mod' num den
      have hnum' := Nat.div_add_mod' num' den'
      rw [← heq] at hnum'
      rw [← hnum, ← hnum', Nat.add_mul, Nat.add_mul, Nat.mul_right_comm _ den'] at h
      exact Nat.le_of_add_le_add_left h
    unfold nearestEven
    rw [← heq]
    generalize num / den = q
    generalize num % den = r at hremainder ⊢
    generalize num' % den' = r' at hremainder ⊢
    have hbelow : 2 * r' < den' → 2 * r < den := by
      intro hr'
      nlinarith
    have habove : den < 2 * r → den' < 2 * r' := by
      intro hr
      nlinarith
    dsimp only
    split_ifs <;> omega

-- ====================================================== binades

/-- More units never belong to a lower binade. -/
theorem binade_mono {units units' : Nat} (h : units ≤ units') : binade units ≤ binade units' := by
  unfold binade
  rw [Nat.log2_eq_log_two, Nat.log2_eq_log_two]
  exact Nat.sub_le_sub_right (Nat.log_mono_right h) 52

theorem lt_of_binade (units : Nat) : units < 2 ^ (53 + binade units) := by
  calc units < 2 ^ (units.log2 + 1) := Nat.lt_log2_self
    _ ≤ 2 ^ (53 + binade units) := Nat.pow_le_pow_right (by decide) (by unfold binade; omega)

/-- Above the least binade a number of units has all the bits of its
binade. -/
theorem le_of_binade_pos {units : Nat} (h : 0 < binade units) :
    2 ^ (52 + binade units) ≤ units := by
  have hne : units ≠ 0 := by
    intro hzero
    rw [hzero] at h
    exact absurd h (by decide)
  unfold binade at h ⊢
  rw [Nat.add_sub_cancel' (by omega)]
  exact Nat.log2_self_le hne

-- ====================================================== quotients

/-- The nearest number of units with the spacing of the binade, in range
or not. -/
def roundedUnits (num den : Nat) : Nat :=
  nearestEven num (den * 2 ^ binade (num / den)) * 2 ^ binade (num / den)

/-- A quotient is rounded to the next binade at most: rounding up may
reach the power of two above, and never passes it. -/
theorem roundedUnits_le (num den : Nat) :
    roundedUnits num den ≤ 2 ^ (53 + binade (num / den)) := by
  unfold roundedUnits
  rw [Nat.pow_add]
  apply Nat.mul_le_mul_right
  have hquotient : num / (den * 2 ^ binade (num / den)) < 2 ^ 53 := by
    rw [← Nat.div_div_eq_div_mul, Nat.div_lt_iff_lt_mul (Nat.two_pow_pos _), ← Nat.pow_add]
    exact lt_of_binade _
  exact (nearestEven_le num _).trans hquotient

/-- A quotient is not rounded to a lower binade. The integer part
already has the leading bit, and rounding does not go below it. -/
theorem le_roundedUnits (h : 0 < binade (num / den)) :
    2 ^ (52 + binade (num / den)) ≤ roundedUnits num den := by
  unfold roundedUnits
  rw [Nat.pow_add]
  apply Nat.mul_le_mul_right
  refine Nat.le_trans ?_ (div_le_nearestEven num _)
  rw [← Nat.div_div_eq_div_mul, Nat.le_div_iff_mul_le (Nat.two_pow_pos _), ← Nat.pow_add]
  exact le_of_binade_pos h

/-- A greater quotient is rounded to no fewer units. Of one binade the
nearest integers are compared; of two, the bound between them is. -/
theorem roundedUnits_mono (hden : 0 < den) (hden' : 0 < den') (h : num * den' ≤ num' * den) :
    roundedUnits num den ≤ roundedUnits num' den' := by
  have hquotient := div_le_div_of_mul_le hden hden' h
  rcases Nat.lt_or_eq_of_le (binade_mono hquotient) with hlt | heq
  · calc roundedUnits num den
        ≤ 2 ^ (53 + binade (num / den)) := roundedUnits_le num den
      _ ≤ 2 ^ (52 + binade (num' / den')) := Nat.pow_le_pow_right (by decide) (by omega)
      _ ≤ roundedUnits num' den' := le_roundedUnits (by omega)
  · unfold roundedUnits
    rw [← heq]
    apply Nat.mul_le_mul_right
    apply nearestEven_mono
    · positivity
    · positivity
    · calc num * (den' * 2 ^ binade (num / den))
          = num * den' * 2 ^ binade (num / den) := (Nat.mul_assoc ..).symm
        _ ≤ num' * den * 2 ^ binade (num / den) := Nat.mul_le_mul_right _ h
        _ = num' * (den * 2 ^ binade (num / den)) := Nat.mul_assoc ..

/-- What is assembled has the magnitude that it is assembled from,
unless that is out of range. -/
theorem magnitude_assemble (negative : Bool) (significand exponent : Nat) :
    (assemble negative significand exponent).magnitude = significand * 2 ^ exponent ∨
      assemble negative significand exponent = .infinite negative := by
  unfold assemble
  split
  · exact .inl rfl
  · split
    · next h =>
      obtain ⟨rfl, -⟩ := h
      left
      show 0x10000000000000 * 2 ^ (exponent + 1) = 0x20000000000000 * 2 ^ exponent
      rw [Nat.pow_succ]
      omega
    · exact .inr rfl

/-- A rounded quotient has the rounded units for its magnitude, unless
they are out of range. -/
theorem magnitude_ofQuotient (negative : Bool) (num den : Nat) :
    (ofQuotient negative num den).magnitude = roundedUnits num den ∨
      ofQuotient negative num den = .infinite negative := by
  unfold ofQuotient
  exact magnitude_assemble _ _ _

/-- A quotient up to one that is rounded to a finite number is rounded
to no greater magnitude. -/
theorem magnitude_ofQuotient_mono (negative : Bool) (hden : 0 < den) (hden' : 0 < den')
    (h : num * den' ≤ num' * den) (hfinite : (ofQuotient negative' num' den').truncate? ≠ none) :
    (ofQuotient negative num den).magnitude ≤ (ofQuotient negative' num' den').magnitude := by
  have hle := roundedUnits_mono hden hden' h
  rcases magnitude_ofQuotient negative' num' den' with hunits' | hinfinite'
  · rcases magnitude_ofQuotient negative num den with hunits | hinfinite
    · rw [hunits, hunits']
      exact hle
    · rw [hinfinite]
      exact Nat.zero_le _
  · rw [hinfinite'] at hfinite
    exact absurd rfl hfinite

-- ====================================================== decimals

/-- A power of ten as a quotient of two powers that are whole. One of
the two is always one. -/
theorem ten_zpow (exponent : Int) :
    (10 : ℚ) ^ exponent = 10 ^ exponent.toNat / 10 ^ (-exponent).toNat := by
  rw [← zpow_natCast, ← zpow_natCast, ← zpow_sub₀ (by norm_num)]
  congr 1
  omega

/-- Of two decimals the greater one has no smaller magnitude, if it is
in range. -/
theorem magnitude_ofDecimal_mono (negative : Bool) {coefficient coefficient' : Nat}
    {exponent exponent' : Int}
    (h : (coefficient : ℚ) * 10 ^ exponent ≤ coefficient' * 10 ^ exponent')
    (hfinite : (ofDecimal negative' coefficient' exponent').truncate? ≠ none) :
    (ofDecimal negative coefficient exponent).magnitude
      ≤ (ofDecimal negative' coefficient' exponent').magnitude := by
  by_cases hzero : coefficient = 0
  · rw [hzero]
    exact Nat.zero_le _
  have hzero' : coefficient' ≠ 0 := by
    intro hzero'
    rw [hzero', Nat.cast_zero, zero_mul] at h
    have hpos : (0 : ℚ) < coefficient * 10 ^ exponent := by positivity
    exact absurd h (not_le.mpr hpos)
  rw [ofDecimal_eq_ofQuotient _ hzero'] at hfinite ⊢
  rw [ofDecimal_eq_ofQuotient _ hzero]
  apply magnitude_ofQuotient_mono _ (by positivity) (by positivity) _ hfinite
  rw [ten_zpow, ten_zpow, ← mul_div_assoc, ← mul_div_assoc,
    div_le_div_iff₀ (by positivity) (by positivity)] at h
  have hcrossed : coefficient * 10 ^ exponent.toNat * 10 ^ (-exponent').toNat
      ≤ coefficient' * 10 ^ exponent'.toNat * 10 ^ (-exponent).toNat := by exact_mod_cast h
  calc coefficient * 10 ^ exponent.toNat * unitsPerOne * 10 ^ (-exponent').toNat
      = coefficient * 10 ^ exponent.toNat * 10 ^ (-exponent').toNat * unitsPerOne :=
        Nat.mul_right_comm ..
    _ ≤ coefficient' * 10 ^ exponent'.toNat * 10 ^ (-exponent).toNat * unitsPerOne :=
        Nat.mul_le_mul_right _ hcrossed
    _ = coefficient' * 10 ^ exponent'.toNat * unitsPerOne * 10 ^ (-exponent).toNat :=
        Nat.mul_right_comm ..

end Spreadsheet.Binary64
