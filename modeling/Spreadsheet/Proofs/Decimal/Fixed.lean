/-
Numbers written with a fixed number of places.

# What is written

What is written is a whole number of units of the last place: the one
nearest to the number, and of two that are equally near the one away from
zero (`nearestUp_near`). The sign is put in front and takes no part in this,
so both signs are rounded alike. The digits are cut so that as many stand
behind the point as there are places, with zeros in front where there are
too few (`fixedDigits_parts`).

# What the text says

A text is read as a rational number without rounding (`rational?`), so that
the text and the number it was written for can be compared exactly. The text
of a whole number of units says that whole number over a power of ten
(`rational?_fixedDigits`). From here on an error of rounding is a difference
of two rational numbers.

# The limit

There is a limit to the digits that may be written. No number comes near it
with a hundred places: the largest one has 309 digits before the point
(`fixed?_eq`).
-/
import Mathlib
import Spreadsheet.Decimal.Fixed
import Spreadsheet.Proofs.Binary64.Value
import Spreadsheet.Proofs.Decimal.Written

namespace Spreadsheet.Decimal

open Binary64 (unitsPerOne)

variable {num den places count : Nat} {negative : Bool} {x : Binary64} {n : Numeral}
  {cs : List Char}

-- ====================================================== what a text says

/-- The rational number that a numeral stands for. -/
def Numeral.toRat (n : Numeral) : ℚ :=
  valueOf (n.whole ++ n.fraction)
    * 10 ^ ((n.power.map Power.value).getD 0 - (n.fraction.length : Int))

/-- The rational number that a whole text says: a numeral with a sign or
none. -/
def rational? (text : Text) : Option ℚ :=
  let (negative, body) := takeSign text
  match Numeral.scan body with
  | some (n, []) => some (if negative then -n.toRat else n.toRat)
  | _ => none

/-- A numeral that stands for zero has no other digit than zero. -/
theorem Numeral.valueOf_eq_zero (h : n.toRat = 0) : valueOf (n.whole ++ n.fraction) = 0 := by
  unfold toRat at h
  rcases mul_eq_zero.mp h with hvalue | hpower
  · exact_mod_cast hvalue
  · exact absurd hpower (by positivity)

/-- A proper numeral with a sign in front says its own value with that
sign. -/
theorem rational?_signed (negative : Bool) (h : n.Proper) (htext : n.text = Text.ofChars cs) :
    rational? (Text.ofChars (signed negative cs))
      = some (if negative then -n.toRat else n.toRat) := by
  unfold rational?
  rw [takeSign_signed h htext]
  dsimp only
  rw [Numeral.scan_text h]

/-- A text with exactly so many places: a sign or none, digits, and a
point with that many digits behind it, or no point if there are no
places. -/
def HasPlaces (places : Nat) (text : Text) : Prop :=
  ∃ negative whole fraction,
    text = Text.ofChars (signed negative (whole ++ if places = 0 then [] else '.' :: fraction)) ∧
      whole ≠ [] ∧ (∀ c ∈ whole ++ fraction, c.isDigit = true) ∧ fraction.length = places

-- ====================================================== the nearest integer

/-- The nearest integer, with the inequalities of naturals that define
it. -/
theorem nearestUp_bounds (num : Nat) (hden : 0 < den) :
    nearestUp num den * (2 * den) ≤ 2 * num + den ∧
      2 * num + den < (nearestUp num den + 1) * (2 * den) := by
  have hdouble : 0 < 2 * den := by omega
  unfold nearestUp
  constructor
  · exact Nat.div_mul_le_self _ _
  · rw [Nat.add_mul, Nat.one_mul]
    exact Nat.lt_div_mul_add hdouble

/-- The nearest integer is off by half at most, and it is the upper one
of two that are equally near. Both are facts about the value of the
quotient. -/
theorem nearestUp_near (num : Nat) (hden : 0 < den) :
    |(nearestUp num den : ℚ) - num / den| ≤ 1 / 2 ∧
      ∀ k : Int, (num / den : ℚ) = k + 1 / 2 → (num / den : ℚ) < nearestUp num den := by
  have hden' : (0 : ℚ) < den := by exact_mod_cast hden
  obtain ⟨hle, hlt⟩ := nearestUp_bounds num hden
  have habove : (nearestUp num den : ℚ) ≤ num / den + 1 / 2 := by
    have hle' : (nearestUp num den : ℚ) * (2 * den) ≤ 2 * num + den := by exact_mod_cast hle
    rw [div_add_div _ _ hden'.ne' two_ne_zero, le_div_iff₀ (by positivity)]
    linarith
  have hbelow : (num / den : ℚ) < nearestUp num den + 1 / 2 := by
    have hlt' : (2 * num + den : ℚ) < (nearestUp num den + 1) * (2 * den) := by exact_mod_cast hlt
    rw [div_lt_iff₀ hden']
    linarith
  constructor
  · rw [abs_le]
    constructor
    · linarith
    · linarith
  · intro k hmiddle
    rw [hmiddle] at hbelow ⊢
    have hcount : (k : ℚ) < (nearestUp num den : Int) := by
      push_cast
      linarith
    have hnext : ((k + 1 : Int) : ℚ) ≤ (nearestUp num den : Int) := by exact_mod_cast hcount
    push_cast at hnext
    linarith

/-- The nearest integer is zero exactly below a half. -/
theorem nearestUp_eq_zero_iff (num : Nat) (hden : 0 < den) :
    nearestUp num den = 0 ↔ 2 * num < den := by
  unfold nearestUp
  rw [Nat.div_eq_zero_iff]
  omega

-- ====================================================== digits and places

/-- The digits of a whole number, cut so that the places stand behind
the point. -/
theorem fixedDigits_parts (places count : Nat) :
    ∃ whole fraction, fixedDigits places count
        = whole ++ (if places = 0 then [] else '.' :: fraction) ∧
      whole ≠ [] ∧ (∀ c ∈ whole ++ fraction, c.isDigit = true) ∧ fraction.length = places ∧
      valueOf (Text.ofChars (whole ++ fraction)) = count := by
  have hlength : places < (padLeft (places + 1) (Nat.toDigits 10 count)).length := by
    rw [padLeft, List.length_append, List.length_replicate]
    omega
  have hdigits : ∀ c ∈ padLeft (places + 1) (Nat.toDigits 10 count), c.isDigit = true := by
    intro c hc
    rcases List.mem_append.mp hc with hc | hc
    · rw [(List.mem_replicate.mp hc).2]
      rfl
    · exact Nat.isDigit_of_mem_toDigits (by decide) (by decide) hc
  have hvalue : valueOf (Text.ofChars (padLeft (places + 1) (Nat.toDigits 10 count))) = count := by
    rw [valueOf_padLeft, valueOf_toDigits]
  unfold fixedDigits
  dsimp only
  generalize padLeft (places + 1) (Nat.toDigits 10 count) = digits at *
  refine ⟨digits.take (digits.length - places), digits.drop (digits.length - places), ?_, ?_, ?_,
    ?_, ?_⟩
  · by_cases hplaces : places = 0
    · simp [hplaces]
    · simp [hplaces]
  · apply List.ne_nil_of_length_pos
    rw [List.length_take]
    omega
  · rwa [List.take_append_drop]
  · rw [List.length_drop]
    omega
  · rwa [List.take_append_drop]

/-- What is written for a whole number has the places asked for. -/
theorem hasPlaces_fixedDigits (negative : Bool) (places count : Nat) :
    HasPlaces places (Text.ofChars (signed negative (fixedDigits places count))) := by
  obtain ⟨whole, fraction, heq, hne, hdigits, hlength, -⟩ := fixedDigits_parts places count
  exact ⟨negative, whole, fraction, by rw [heq], hne, hdigits, hlength⟩

/-- A minus sign stands in front exactly if there is a sign, for what
follows starts with a digit. This is how the sign of a zero can be read
off a text. -/
theorem head?_fixedDigits (negative : Bool) (places count : Nat) :
    (Text.ofChars (signed negative (fixedDigits places count))).head? = some (.char '-')
      ↔ negative = true := by
  cases negative with
  | true => exact iff_of_true rfl rfl
  | false =>
      obtain ⟨whole, fraction, heq, hne, hdigits, -⟩ := fixedDigits_parts places count
      obtain ⟨c, rest, rfl⟩ := List.exists_cons_of_ne_nil hne
      have hminus : c ≠ '-' := by
        intro hc
        have hdigit := hdigits c (by simp)
        rw [hc] at hdigit
        cases hdigit
      rw [heq]
      simpa [signed, Text.ofChars] using hminus

theorem digits_ofChars {cs : List Char} (h : ∀ c ∈ cs, c.isDigit = true) :
    Digits (Text.ofChars cs) := by
  intro c hc
  obtain ⟨d, hd, rfl⟩ := List.mem_map.mp hc
  have hfigure := h d hd
  apply isDigit_of_isFigure
  rw [Reference.isFigure_iff]
  simp only [Char.isDigit, Bool.and_eq_true, decide_eq_true_eq] at hfigure
  exact ⟨hfigure.1, hfigure.2⟩

/-- What is written for a whole number with places is that number over a
power of ten. -/
theorem rational?_fixedDigits (negative : Bool) (places count : Nat) :
    rational? (Text.ofChars (signed negative (fixedDigits places count)))
      = some (if negative then -(count / 10 ^ places : ℚ) else count / 10 ^ places) := by
  obtain ⟨whole, fraction, heq, hne, hdigits, hlength, hvalue⟩ := fixedDigits_parts places count
  have hwhole : Digits (Text.ofChars whole) :=
    digits_ofChars fun c hc => hdigits c (List.mem_append_left _ hc)
  have hfraction : Digits (Text.ofChars fraction) :=
    digits_ofChars fun c hc => hdigits c (List.mem_append_right _ hc)
  have hne' : Text.ofChars whole ≠ [] := by simpa [Text.ofChars] using hne
  have hlength' : (Text.ofChars fraction).length = places := by simpa [Text.ofChars] using hlength
  have hjoined : Text.ofChars whole ++ Text.ofChars fraction
      = Text.ofChars (whole ++ fraction) := by
    simp [Text.ofChars]
  have hrat : ∀ point, (Numeral.mk (Text.ofChars whole) point (Text.ofChars fraction) none).toRat
      = count / 10 ^ places := by
    intro point
    simp [Numeral.toRat, hjoined, hvalue, hlength', div_eq_mul_inv]
  by_cases hplaces : places = 0
  · have hnil : fraction = [] := List.eq_nil_of_length_eq_zero (hlength.trans hplaces)
    have hproper : (Numeral.mk (Text.ofChars whole) false (Text.ofChars fraction) none).Proper := by
      rw [hnil]
      exact Numeral.proper_whole hwhole hne' (by simp)
    rw [if_pos hplaces, List.append_nil] at heq
    rw [rational?_signed negative hproper (by simp [heq, hnil, Numeral.text, Text.ofChars]), hrat]
  · have hproper : (Numeral.mk (Text.ofChars whole) true (Text.ofChars fraction) none).Proper :=
      Numeral.proper_point hwhole hfraction hne' (by simp)
    rw [if_neg hplaces] at heq
    rw [rational?_signed negative hproper (by simp [heq, Numeral.text, Text.ofChars]), hrat]

-- ====================================================== the limit

theorem nearestUp_le (num : Nat) (hden : 0 < den) : nearestUp num den ≤ num + 1 := by
  have hbound := (nearestUp_bounds num hden).1
  have hle : 2 * num + den ≤ (num + 1) * (2 * den) := by nlinarith
  exact Nat.le_of_mul_le_mul_right (hbound.trans hle) (by omega)

/-- Up to a hundred places, every finite number is written: the limit on
digits is out of reach. -/
theorem fixed?_eq (x : Binary64) (hplaces : places ≤ 100) :
    fixed? places x = some (signed x.isNegative
      (fixedDigits places (nearestUp (x.magnitude * 10 ^ places) unitsPerOne))) := by
  have hshort : nearestUp (x.magnitude * 10 ^ places) unitsPerOne < 10 ^ maxFixedDigits := by
    calc nearestUp (x.magnitude * 10 ^ places) unitsPerOne
        ≤ x.magnitude * 10 ^ places + 1 := nearestUp_le _ Binary64.unitsPerOne_pos
      _ ≤ 2 ^ 53 * 2 ^ 2045 * 16 ^ 100 + 1 := by
        apply Nat.add_le_add_right
        apply Nat.mul_le_mul (Nat.le_of_lt (x.magnitude_lt (Nat.le_refl 2045)))
        exact (Nat.pow_le_pow_left (by decide) places).trans
          (Nat.pow_le_pow_right (by decide) hplaces)
      _ < 10 ^ maxFixedDigits := by decide +kernel
  unfold fixed?
  simp only [Nat.pow_eq]
  rw [if_pos hshort]

end Spreadsheet.Decimal
