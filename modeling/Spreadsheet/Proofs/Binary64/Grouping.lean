/-
Every number of a list is added exactly once.

# Totals

The grouping of a sum changes with the length of the list: from left to
right, over eight running sums, or cut in two. What does not change is that
every number is added, and added once. A total of some numbers is whatever
adds each of them once, in some grouping and order (`Totals`): the relation
has one rule for no number, one for a single number, and one for an addition
of two totals.

The sum of a list is a total of its numbers at every length (`totals_sum`).
The three cases follow the definition of the sum. A short list is summed
from left to right. A block keeps eight running sums, and the invariant of
its loop is that they are totals of eight parts that make up what has been
read (`Lanes.Hold`). A long list is cut in two, by recursion on its length.

# Where the grouping does not matter

Additions round, so different totals of the same numbers may differ. But
integers whose absolute values come to no more than 2^53 are added without
rounding, for no partial sum gets past that bound, and all their totals are
the exact sum (`Totals.isInteger`). The proof is by induction on the total,
so it does not look at how the sum was grouped.
-/
import Mathlib
import Spreadsheet.Binary64.Sum
import Spreadsheet.Proofs.Binary64.Value

namespace Spreadsheet.Binary64

-- ====================================================== totals

/-- A number that each of some numbers was added to once. -/
inductive Totals : Multiset Binary64 → Binary64 → Prop
  | none : Totals 0 (zero false)
  | one (x : Binary64) : Totals {x} x
  | join {s t : Multiset Binary64} {x y : Binary64} (hs : Totals s x) (ht : Totals t y) :
      Totals (s + t) (x + y)

variable {s t : Multiset Binary64} {x y : Binary64}

/-- One more number is added. -/
theorem Totals.add_one (h : Totals s x) (y : Binary64) : Totals (s + {y}) (x + y) :=
  h.join (.one y)

/-- More numbers may be added one by one, from left to right: the total
grows by each of them once. -/
theorem Totals.sumFrom (h : Totals s x) (ys : List Binary64) :
    Totals (s + ys) (Binary64.sumFrom x ys) := by
  induction ys generalizing s x with
  | nil =>
      show Totals (s + 0) x
      rwa [add_zero]
  | cons y ys ih =>
      have hnext := ih (h.add_one y)
      rwa [add_assoc, Multiset.singleton_add, Multiset.cons_coe] at hnext

-- ====================================================== eight running sums

/-- The running sums are totals of eight parts of the numbers. -/
inductive Lanes.Hold : Lanes → Multiset Binary64 → Prop
  | intro {l : Lanes} {s0 s1 s2 s3 s4 s5 s6 s7 : Multiset Binary64} (h0 : Totals s0 l.l0)
      (h1 : Totals s1 l.l1) (h2 : Totals s2 l.l2) (h3 : Totals s3 l.l3) (h4 : Totals s4 l.l4)
      (h5 : Totals s5 l.l5) (h6 : Totals s6 l.l6) (h7 : Totals s7 l.l7) :
      Hold l (((s0 + s1) + (s2 + s3)) + ((s4 + s5) + (s6 + s7)))

variable {l : Lanes}

/-- Joined in pairs, the running sums are a total of all eight parts. -/
theorem Lanes.Hold.join (h : l.Hold s) : Totals s l.join := by
  cases h with
  | intro h0 h1 h2 h3 h4 h5 h6 h7 =>
      exact ((h0.join h1).join (h2.join h3)).join ((h4.join h5).join (h6.join h7))

/-- Each of eight more numbers goes to a running sum of its own, so the
parts that the lanes are sums of grow by one number each. -/
theorem Lanes.Hold.next (h : l.Hold s) (x0 x1 x2 x3 x4 x5 x6 x7 : Binary64) :
    Lanes.Hold ⟨l.l0 + x0, l.l1 + x1, l.l2 + x2, l.l3 + x3, l.l4 + x4, l.l5 + x5, l.l6 + x6,
      l.l7 + x7⟩ (s + [x0, x1, x2, x3, x4, x5, x6, x7]) := by
  cases h with
  | @intro s0 s1 s2 s3 s4 s5 s6 s7 h0 h1 h2 h3 h4 h5 h6 h7 =>
      have hsplit : (((s0 + s1) + (s2 + s3)) + ((s4 + s5) + (s6 + s7)))
            + ([x0, x1, x2, x3, x4, x5, x6, x7] : Multiset Binary64)
          = (((s0 + {x0}) + (s1 + {x1})) + ((s2 + {x2}) + (s3 + {x3})))
            + (((s4 + {x4}) + (s5 + {x5})) + ((s6 + {x6}) + (s7 + {x7}))) := by
        have hlist : ([x0, x1, x2, x3, x4, x5, x6, x7] : Multiset Binary64)
            = {x0} + {x1} + {x2} + {x3} + {x4} + {x5} + {x6} + {x7} := by
          rfl
        rw [hlist]
        abel
      rw [hsplit]
      exact .intro (h0.add_one x0) (h1.add_one x1) (h2.add_one x2) (h3.add_one x3) (h4.add_one x4)
        (h5.add_one x5) (h6.add_one x6) (h7.add_one x7)

/-- What is left over after the last block of eight is added to the
joined running sums. -/
theorem Lanes.Hold.absorb (h : l.Hold s) (xs : List Binary64) : Totals (s + xs) (l.absorb xs) := by
  induction l, xs using Lanes.absorb.induct generalizing s with
  | case1 l x0 x1 x2 x3 x4 x5 x6 x7 xs ih =>
      have hrest := ih (h.next x0 x1 x2 x3 x4 x5 x6 x7)
      rw [Lanes.absorb]
      rwa [add_assoc, Multiset.coe_add] at hrest
  | case2 l xs hshort =>
      rw [Lanes.absorb.eq_2 l xs hshort]
      exact h.join.sumFrom xs

-- ====================================================== the sum of a list

/-- A block is a total of its numbers: eight of them start the running
sums, whole eights follow, and the rest comes last. -/
theorem totals_sumBlock (xs : List Binary64) : Totals xs (sumBlock xs) := by
  unfold sumBlock
  split
  · next x0 x1 x2 x3 x4 x5 x6 x7 xs =>
    have hlanes : Lanes.Hold ⟨x0, x1, x2, x3, x4, x5, x6, x7⟩
        ((({x0} + {x1}) + ({x2} + {x3})) + (({x4} + {x5}) + ({x6} + {x7}))) :=
      .intro (.one x0) (.one x1) (.one x2) (.one x3) (.one x4) (.one x5) (.one x6) (.one x7)
    have hblock := hlanes.absorb xs
    have hlist : ((({x0} + {x1}) + ({x2} + {x3})) + (({x4} + {x5}) + ({x6} + {x7})) + xs
        : Multiset Binary64) = (x0 :: x1 :: x2 :: x3 :: x4 :: x5 :: x6 :: x7 :: xs : List _) := by
      rfl
    rwa [hlist] at hblock
  · have hsum := Totals.none.sumFrom xs
    rwa [zero_add] at hsum

/-- The sum of a list adds every number of it once, however long the
list is and so however its additions are grouped. -/
theorem totals_sum (xs : List Binary64) : Totals xs (sum xs) := by
  induction xs using sum.induct with
  | case1 xs hshort =>
      rw [sum, if_pos hshort]
      exact totals_sumBlock xs
  | case2 xs hlong ih ih' =>
      rw [sum, if_neg hlong]
      have hjoin := ih.join ih'
      rwa [Multiset.coe_add, List.take_append_drop] at hjoin

-- ====================================================== integers

/-- A finite number whose value is the integer. -/
structure IsInteger (x : Binary64) (n : Int) : Prop where
  finite : x.truncate? ≠ .none
  units : x.units = n * unitsPerOne

variable {m n : Int}

/-- The magnitude of an integer is its absolute value, counted in
units. -/
theorem IsInteger.magnitude_eq (h : IsInteger x n) : x.magnitude = n.natAbs * unitsPerOne := by
  have hunits : x.units.natAbs = x.magnitude := by
    unfold Binary64.units
    split
    · rw [Int.natAbs_neg, Int.natAbs_natCast]
    · rw [Int.natAbs_natCast]
  rw [← hunits, h.units, Int.natAbs_mul, Int.natAbs_natCast]

/-- An integer up to 2^53 has a canonical magnitude: it has no more bits
than a significand, so it needs no rounding. -/
theorem exists_canonical {n : Nat} (hn : n ≤ 2 ^ 53) :
    ∃ significand exponent, Canonical significand exponent ∧
      significand * 2 ^ exponent = n * unitsPerOne := by
  obtain ⟨top, htop⟩ : ∃ top, top = 1074 := ⟨_, rfl⟩
  rw [unitsPerOne_eq, ← htop]
  by_cases hzero : n = 0
  · exact ⟨0, 0, ⟨by decide, by decide, .inl rfl⟩, by rw [hzero, Nat.zero_mul, Nat.zero_mul]⟩
  by_cases hlast : n = 2 ^ 53
  · refine ⟨0x10000000000000, top + 1, ⟨by decide, by omega, .inr (Nat.le_refl _)⟩, ?_⟩
    calc 0x10000000000000 * 2 ^ (top + 1) = 0x10000000000000 * 2 * 2 ^ top := by
          rw [Nat.pow_succ', Nat.mul_assoc]
      _ = n * 2 ^ top := by
          rw [hlast]
          norm_num
  · -- the significand is the integer with its first bit moved to the front
    have hlog : n.log2 ≤ 52 := by
      have hlt : n.log2 < 53 := (Nat.log2_lt hzero).mpr (by omega)
      omega
    have hlow : 2 ^ n.log2 ≤ n := Nat.log2_self_le hzero
    have hhigh : n < 2 ^ (n.log2 + 1) := Nat.lt_log2_self
    generalize n.log2 = bits at hlog hlow hhigh
    refine ⟨n * 2 ^ (52 - bits), 1022 + bits, ⟨?_, by omega, .inr ?_⟩, ?_⟩
    · calc n * 2 ^ (52 - bits) < 2 ^ (bits + 1) * 2 ^ (52 - bits) :=
            Nat.mul_lt_mul_of_pos_right hhigh (Nat.two_pow_pos _)
        _ = 0x20000000000000 := by
            rw [← Nat.pow_add, show bits + 1 + (52 - bits) = 53 by omega]
    · calc 0x10000000000000 = 2 ^ bits * 2 ^ (52 - bits) := by
            rw [← Nat.pow_add, show bits + (52 - bits) = 52 by omega]
        _ ≤ n * 2 ^ (52 - bits) := Nat.mul_le_mul_right _ hlow
    · rw [Nat.mul_assoc, ← Nat.pow_add, show 52 - bits + (1022 + bits) = top by omega]

/-- An integer up to 2^53 is rounded to itself, for as a number of units
it is canonical: it has 53 bits, or it is that power of two. -/
theorem isInteger_ofQuotient (negative : Bool) {n : Nat} (hn : n ≤ 2 ^ 53) :
    IsInteger (ofQuotient negative (n * unitsPerOne) 1) (if negative then -(n : Int) else n) := by
  obtain ⟨significand, exponent, hcanonical, hvalue⟩ := exists_canonical hn
  have hround := ofQuotient_of_canonical negative hcanonical Nat.one_pos
  rw [Nat.mul_one, hvalue] at hround
  rw [hround]
  have hmagnitude : (finite negative significand exponent hcanonical).magnitude
      = n * unitsPerOne := by
    rw [magnitude, Nat.pow_eq, hvalue]
  refine ⟨Option.some_ne_none _, ?_⟩
  rw [units, hmagnitude, Int.natCast_mul, isNegative]
  cases negative with
  | false => rw [if_neg Bool.false_ne_true, if_neg Bool.false_ne_true]
  | true => rw [if_pos rfl, if_pos rfl, Int.neg_mul]

/-- The sign that a whole number of units is rounded with is the sign of
the integer. -/
theorem signed_natAbs {unit : Int} (hunit : 0 < unit) (zeroSign : Bool) (n : Int) :
    (if (if n * unit = 0 then zeroSign else decide (n * unit < 0)) then -(n.natAbs : Int)
      else n.natAbs) = n := by
  rcases Int.lt_trichotomy n 0 with hn | rfl | hn
  · have hnegative : n * unit < 0 := Int.mul_neg_of_neg_of_pos hn hunit
    rw [if_neg (Int.ne_of_lt hnegative), decide_eq_true hnegative, if_pos rfl]
    omega
  · simp
  · have hpositive : 0 < n * unit := Int.mul_pos hn hunit
    rw [if_neg (Int.ne_of_gt hpositive), decide_eq_false (Int.not_lt.mpr (Int.le_of_lt hpositive)),
      if_neg Bool.false_ne_true]
    omega

/-- A whole number of ones is rounded to the integer itself, whichever
sign a zero would be given. -/
theorem isInteger_ofUnits (zeroSign : Bool) (hn : n.natAbs ≤ 2 ^ 53) :
    IsInteger (ofUnits zeroSign (n * unitsPerOne)) n := by
  have hunit : (0 : Int) < unitsPerOne := Int.natCast_pos.mpr unitsPerOne_pos
  have hround := isInteger_ofQuotient
    (if n * unitsPerOne = 0 then zeroSign else decide (n * unitsPerOne < 0)) hn
  rw [signed_natAbs hunit] at hround
  unfold ofUnits
  rwa [Int.natAbs_mul, Int.natAbs_natCast]

/-- An integer that is written in digits is read as that integer, for a
decimal without places is the quotient by one. -/
theorem isInteger_ofDecimal (negative : Bool) {n : Nat} (hn : n ≤ 2 ^ 53) :
    IsInteger (ofDecimal negative n 0) (if negative then -(n : Int) else n) := by
  have hround := isInteger_ofQuotient negative hn
  by_cases hzero : n = 0
  · subst hzero
    rw [Nat.zero_mul, ofQuotient_of_lt negative (by decide)] at hround
    rw [ofDecimal, if_pos rfl]
    exact hround
  · rw [ofDecimal_eq_ofQuotient negative hzero]
    rwa [Int.toNat_zero, Nat.pow_zero, Nat.mul_one, Int.neg_zero, Int.toNat_zero, Nat.pow_zero]

/-- Integers are added without rounding, as long as their sum is no
larger than 2^53. -/
theorem IsInteger.add (hx : IsInteger x m) (hy : IsInteger y n) (hbound : (m + n).natAbs ≤ 2 ^ 53) :
    IsInteger (x + y) (m + n) := by
  cases x with
  | nan => exact absurd rfl hx.finite
  | infinite => exact absurd rfl hx.finite
  | finite a _ _ _ =>
      cases y with
      | nan => exact absurd rfl hy.finite
      | infinite => exact absurd rfl hy.finite
      | finite b _ _ _ =>
          have hround := isInteger_ofUnits (a && b) hbound
          rwa [Int.add_mul, ← hx.units, ← hy.units] at hround

/-- The integer that an integral number is. Of other numbers it says
nothing. -/
def integer (x : Binary64) : Int :=
  x.units / unitsPerOne

/-- A number that is an integer is that integer: the units are a
multiple of those of one, so the division leaves no rest. -/
theorem IsInteger.integer_eq (h : IsInteger x n) : x.integer = n := by
  rw [integer, h.units]
  exact Int.mul_ediv_cancel n (Int.natCast_ne_zero.mpr (Nat.ne_of_gt unitsPerOne_pos))

/-- Every total of integers is their exact sum, if their absolute values
come to no more than 2^53. The bound is on the absolute values and not
on the sum, so that it holds of each partial sum too. -/
theorem Totals.isInteger (h : Totals s x) (hinteger : ∀ y ∈ s, IsInteger y y.integer)
    (hbound : (s.map fun y => y.integer.natAbs).sum ≤ 2 ^ 53) :
    IsInteger x (s.map integer).sum ∧
      (s.map integer).sum.natAbs ≤ (s.map fun y => y.integer.natAbs).sum := by
  induction h with
  | none =>
      rw [Multiset.map_zero, Multiset.sum_zero]
      exact ⟨⟨Option.some_ne_none _, by rw [Int.zero_mul]; rfl⟩, Nat.zero_le _⟩
  | one x =>
      rw [Multiset.map_singleton, Multiset.sum_singleton, Multiset.map_singleton,
        Multiset.sum_singleton]
      exact ⟨hinteger x (Multiset.mem_singleton_self x), Nat.le_refl _⟩
  | @join s t x y hs ht ih ih' =>
      simp only [Multiset.map_add, Multiset.sum_add] at hbound ⊢
      obtain ⟨hx, hle⟩ := ih (fun y hy => hinteger y (Multiset.mem_add.mpr (.inl hy))) (by omega)
      obtain ⟨hy, hle'⟩ := ih' (fun y hy => hinteger y (Multiset.mem_add.mpr (.inr hy))) (by omega)
      -- the partial sum is no larger than the absolute values that went into it
      have hsum := Int.natAbs_add_le (s.map integer).sum (t.map integer).sum
      exact ⟨hx.add hy (by omega), by omega⟩

/-- The sum of a list of integers is exact, if their absolute values
come to no more than 2^53. -/
theorem isInteger_sum {α : Type} {items : List α} {number : α → Binary64} {amount : α → Int}
    (h : ∀ item ∈ items, IsInteger (number item) (amount item))
    (hbound : (items.map fun item => (amount item).natAbs).sum ≤ 2 ^ 53) :
    IsInteger (sum (items.map number)) (items.map amount).sum ∧
      (items.map amount).sum.natAbs ≤ 2 ^ 53 := by
  have hinteger : ∀ item ∈ items, (number item).integer = amount item :=
    fun item hitem => (h item hitem).integer_eq
  have htotal := (totals_sum (items.map number)).isInteger
  simp only [Multiset.map_coe, Multiset.sum_coe, List.map_map, Multiset.mem_coe,
    List.forall_mem_map] at htotal
  have hamounts : items.map (integer ∘ number) = items.map amount :=
    List.map_congr_left hinteger
  have hsizes : items.map ((fun x => x.integer.natAbs) ∘ number)
      = items.map fun item => (amount item).natAbs :=
    List.map_congr_left fun item hitem => congrArg Int.natAbs (hinteger item hitem)
  rw [hamounts, hsizes] at htotal
  have hall : ∀ item ∈ items, IsInteger (number item) (number item).integer := by
    intro item hitem
    rw [hinteger item hitem]
    exact h item hitem
  obtain ⟨hsum, hle⟩ := htotal hall hbound
  exact ⟨hsum, hle.trans hbound⟩

end Spreadsheet.Binary64
