/-
Upper case is reached at once.

# What the tables move

The tables of upper case move some code points to others, and nowhere do
they move one that they yield (`notMem_moved_of_mem_reached`). So every
character of an upper case is its own upper case, and a text in upper case
is left as it is (`upper_upper`). This is a fact about the tables and not
about case: with another table an upper case might have an upper case of its
own.

# Comparing them

The tables are too long to compare point by point. The points that are moved
and those that are reached are made the bits of two numbers, and the numbers
have no bit in common (`notMem_of_bitsAt_and`). Each number is built in one
pass, and the comparison is a single operation on them.

# Blanks

No blank is moved, so a text keeps its blanks in upper case
(`onPoint_upperChar_of_isBlank`), and what is trimmed before may as well be
trimmed after.
-/
import Spreadsheet.Text.Blank
import Spreadsheet.Text.Case

namespace Spreadsheet.Text

-- ====================================================== sets of numbers as bits

/-- The number whose bits are set at the given places. -/
def bitsAt (places : List Nat) : Nat :=
  places.foldl (fun bits n => bits ||| 1 <<< n) 0

/-- A bit of the number is set if it was set at the start or is
listed. -/
theorem testBit_foldl_or (places : List Nat) (bits n : Nat) :
    (places.foldl (fun bits n => bits ||| 1 <<< n) bits).testBit n = true ↔
      bits.testBit n = true ∨ n ∈ places := by
  induction places generalizing bits with
  | nil => simp
  | cons m places ih =>
      rw [List.foldl_cons, ih, Nat.testBit_or, Nat.one_shiftLeft, Nat.testBit_two_pow,
        Bool.or_eq_true, decide_eq_true_iff, List.mem_cons, or_assoc, eq_comm (a := m)]

/-- Lists whose bits do not meet have no member in common. So two tables
of numbers are compared by one operation on large numbers. -/
theorem notMem_of_bitsAt_and {places others : List Nat} (h : bitsAt places &&& bitsAt others = 0)
    {n : Nat} (hn : n ∈ others) : n ∉ places := by
  intro hmem
  have hplaces := (testBit_foldl_or places 0 n).mpr (.inr hmem)
  have hothers := (testBit_foldl_or others 0 n).mpr (.inr hn)
  have hboth : (bitsAt places &&& bitsAt others).testBit n = true := by
    rw [Nat.testBit_and, Bool.and_eq_true]
    exact ⟨hplaces, hothers⟩
  rw [h, Nat.zero_testBit] at hboth
  cases hboth

-- ====================================================== what the tables move

/-- The code points that a run covers. -/
def CaseRun.sources : CaseRun → List Nat
  | (first, count, step, _) => (List.range count).map fun k => first + step * k

/-- The code points that a run sends them to. -/
def CaseRun.targets : CaseRun → List Nat
  | (_, count, step, target) => (List.range count).map fun k => target + step * k

/-- A code point that a run moves is among its sources, and goes to one
of its targets. -/
theorem CaseRun.mem_of_target? {run : CaseRun} {n m : Nat} (h : run.target? n = some m) :
    n ∈ run.sources ∧ m ∈ run.targets := by
  obtain ⟨first, count, step, target⟩ := run
  simp only [target?] at h
  split at h
  · next hcovered =>
    obtain ⟨hfirst, hstep, hcount⟩ := hcovered
    obtain rfl := Option.some.inj h
    have hdistance : step * ((n - first) / step) = n - first :=
      Nat.mul_div_cancel' (Nat.dvd_of_mod_eq_zero hstep)
    refine ⟨List.mem_map.mpr ⟨_, List.mem_range.mpr hcount, ?_⟩,
      List.mem_map.mpr ⟨_, List.mem_range.mpr hcount, ?_⟩⟩
    · rw [hdistance]
      omega
    · rw [hdistance]
  · cases h

/-- The code points that have another upper case. -/
def moved : List Nat :=
  upperExpansions.map (·.1) ++ upperRuns.flatMap CaseRun.sources

/-- The code points that stand in the upper case of another, and zero,
which stands for what is no code point. -/
def reached : List Nat :=
  0 :: (upperExpansions.flatMap (·.2) ++ upperRuns.flatMap CaseRun.targets)

/-- No code point that stands in an upper case is moved itself. -/
theorem notMem_moved_of_mem_reached {n : Nat} (h : n ∈ reached) : n ∉ moved :=
  notMem_of_bitsAt_and (by decide +kernel) h

-- ====================================================== characters

/-- What a run moves is moved, and where it goes is reached. -/
theorem mem_moved_of_target? {run : CaseRun} (hrun : run ∈ upperRuns) {n m : Nat}
    (h : run.target? n = some m) : n ∈ moved ∧ m ∈ reached := by
  obtain ⟨hn, hm⟩ := CaseRun.mem_of_target? h
  constructor
  · exact List.mem_append_right _ (List.mem_flatMap.mpr ⟨run, hrun, hn⟩)
  · exact List.mem_cons_of_mem _ (List.mem_append_right _ (List.mem_flatMap.mpr ⟨run, hrun, hm⟩))

/-- The letters of the basic alphabet have a run of their own in the
table, thirty-two places above their capitals. -/
theorem mem_moved_of_basic {n : Nat} (hfirst : 97 ≤ n) (hlast : n ≤ 122) :
    n ∈ moved ∧ n - 32 ∈ reached := by
  have hrun : (97, 26, 1, 65) ∈ upperRuns := List.mem_cons_self ..
  have htarget : CaseRun.target? (97, 26, 1, 65) n = some (n - 32) := by
    simp only [CaseRun.target?]
    rw [if_pos (by omega)]
    congr 1
    omega
  exact mem_moved_of_target? hrun htarget

theorem toNat_toUpper {c : Char} (h : c.toNat < 128) :
    c.toUpper.toNat = if 97 ≤ c.toNat ∧ c.toNat ≤ 122 then c.toNat - 32 else c.toNat := by
  have hall : ∀ n < 128, (Char.ofNat n).toUpper.toNat
      = if 97 ≤ n ∧ n ≤ 122 then n - 32 else n := by decide
  have hc := hall c.toNat h
  rwa [Char.ofNat_toNat] at hc

/-- A number that is that of no character is taken for zero. -/
theorem toNat_ofNat_or (n : Nat) : (Char.ofNat n).toNat = n ∨ (Char.ofNat n).toNat = 0 := by
  unfold Char.ofNat
  by_cases hvalid : n.isValidChar
  · rw [dif_pos hvalid]
    exact .inl rfl
  · rw [dif_neg hvalid]
    exact .inr rfl

/-- The character of a number that is reached has a number that is
reached, also where it is that of no character. -/
theorem toNat_ofNat_mem_reached {n : Nat} (h : n ∈ reached) : (Char.ofNat n).toNat ∈ reached := by
  rcases toNat_ofNat_or n with hn | hn
  · rwa [hn]
  · rw [hn]
    exact List.mem_cons_self ..

/-- What has several characters for its upper case is moved, and they
are all reached. -/
theorem mem_moved_of_expansion {n : Nat} {ns : List Nat} (h : upperExpansions.lookup n = some ns) :
    n ∈ moved ∧ ∀ m ∈ ns, m ∈ reached := by
  obtain ⟨before, after, hsplit, -⟩ := List.lookup_eq_some_iff.mp h
  have hmem : (n, ns) ∈ upperExpansions := by
    rw [hsplit]
    exact List.mem_append_right _ (List.mem_cons_self ..)
  constructor
  · exact List.mem_append_left _ (List.mem_map.mpr ⟨_, hmem, rfl⟩)
  · intro m hm
    exact List.mem_cons_of_mem _ (List.mem_append_left _ (List.mem_flatMap.mpr ⟨_, hmem, hm⟩))

/-- A character that is not moved is its own upper case: neither a run
of the table nor a special case names it. -/
theorem upperChar_of_notMem {c : Char} (h : c.toNat ∉ moved) : upperChar c = [c] := by
  unfold upperChar
  split
  · next hbasic =>
    have hletter : ¬(97 ≤ c.toNat ∧ c.toNat ≤ 122) := fun hc =>
      h (mem_moved_of_basic hc.1 hc.2).1
    have hsame := toNat_toUpper hbasic
    rw [if_neg hletter] at hsame
    rw [Char.toNat_inj.mp hsame]
  · unfold mappedChar
    have hruns : upperRuns.findSome? (·.target? c.toNat) = none := by
      refine List.findSome?_eq_none_iff.mpr fun run hrun => ?_
      cases htarget : run.target? c.toNat with
      | none => rfl
      | some m => exact absurd (mem_moved_of_target? hrun htarget).1 h
    cases hexpansion : upperExpansions.lookup c.toNat with
    | some ns => exact absurd (mem_moved_of_expansion hexpansion).1 h
    | none =>
        simp only [hruns]
        rfl

/-- The numbers of the blanks. -/
def blanks : List Nat :=
  blankRanges.flatMap fun r => List.range' r.1 (r.2 + 1 - r.1)

/-- A blank is its own upper case, so a text can be trimmed before or
after it is put in upper case. -/
theorem onPoint_upperChar_of_isBlank {b : CodePoint} (hb : isBlank b = true) :
    onPoint upperChar b = [b] := by
  cases b with
  | surrogate n => rfl
  | char c =>
      obtain ⟨r, hr, hin⟩ := List.any_eq_true.mp hb
      simp only [Bool.and_eq_true, decide_eq_true_eq] at hin
      have hmem : c.toNat ∈ blanks := by
        have hcode : CodePoint.code (.char c) = c.toNat := rfl
        refine List.mem_flatMap.mpr ⟨r, hr, List.mem_range'_1.mpr ?_⟩
        omega
      have hmoved : c.toNat ∉ moved := notMem_of_bitsAt_and (by decide +kernel) hmem
      rw [onPoint, upperChar_of_notMem hmoved]
      rfl

/-- A character is its own upper case, or its upper case is made of what
the tables reach. -/
theorem upperChar_self_or_reached (c : Char) :
    upperChar c = [c] ∨ ∀ d ∈ upperChar c, d.toNat ∈ reached := by
  unfold upperChar
  split
  · next hbasic =>
    have hupper := toNat_toUpper hbasic
    split at hupper
    · next hletter =>
      refine .inr fun d hd => ?_
      rw [List.mem_singleton.mp hd, hupper]
      exact (mem_moved_of_basic hletter.1 hletter.2).2
    · exact .inl (by rw [Char.toNat_inj.mp hupper])
  · unfold mappedChar
    split
    · next ns hexpansion =>
      refine .inr fun d hd => ?_
      obtain ⟨n, hn, rfl⟩ := List.mem_map.mp hd
      exact toNat_ofNat_mem_reached ((mem_moved_of_expansion hexpansion).2 n hn)
    · cases hruns : upperRuns.findSome? (·.target? c.toNat) with
      | none => exact .inl rfl
      | some m =>
          obtain ⟨run, hrun, htarget⟩ := List.exists_of_findSome?_eq_some hruns
          refine .inr fun d hd => ?_
          rw [List.mem_singleton.mp hd]
          exact toNat_ofNat_mem_reached (mem_moved_of_target? hrun htarget).2

/-- What stands in the upper case of a character is its own upper
case. -/
theorem upperChar_of_mem_upperChar {c d : Char} (h : d ∈ upperChar c) : upperChar d = [d] := by
  rcases upperChar_self_or_reached c with hself | hreached
  · rw [hself] at h
    rwa [List.mem_singleton.mp h]
  · exact upperChar_of_notMem (notMem_moved_of_mem_reached (hreached d h))

-- ====================================================== texts

/-- Characters that are their own upper case make a text that is. No
character of a text depends on its neighbours here. -/
theorem upper_ofChars {cs : List Char} (h : ∀ c ∈ cs, upperChar c = [c]) :
    upper (ofChars cs) = ofChars cs := by
  induction cs with
  | nil => rfl
  | cons c cs ih =>
      have hrest := ih fun d hd => h d (List.mem_cons_of_mem _ hd)
      calc upper (ofChars (c :: cs))
          = ofChars (upperChar c) ++ upper (ofChars cs) := rfl
        _ = ofChars (c :: cs) := by
          rw [h c (List.mem_cons_self ..), hrest]
          rfl

/-- A text in upper case is its own upper case, since what the table
moves to is nowhere moved again. -/
theorem upper_upper (text : Text) : upper (upper text) = upper text := by
  have hpoint : ∀ c, upper (onPoint upperChar c) = onPoint upperChar c := by
    intro c
    cases c with
    | char c => exact upper_ofChars fun d => upperChar_of_mem_upperChar
    | surrogate n => rfl
  calc upper (upper text)
      = text.flatMap fun c => upper (onPoint upperChar c) := List.flatMap_assoc
    _ = upper text := by
      simp only [hpoint]
      rfl

end Spreadsheet.Text
