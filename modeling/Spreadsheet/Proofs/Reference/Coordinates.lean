/-
Labels and keys go both ways.

# Labels

The label of a column is decoded to that column (`ofLetters_lettersOf`), and
every word of letters is the label of the column that it stands for. So
labels are in one-to-one correspondence with columns, and they come in order
as the columns do: the shorter first, and those of one length as in a
dictionary (`lt_iff_shortlex_label`).

The last letter of a label counts the columns of one group of twenty-six,
and what stands before it is the label of the group: the recursion of
`lettersOf`, on which the inductions here run. It is not positional notation
in base 26, since no letter stands for zero, and this is why no two labels
stand for one column.

# Keys

With plain figures for the row the same holds of keys (`parse?_key`,
`label_and_key_inverse`). A row is counted from zero and written from one,
so the row above the first has a key as well, with the figure zero; and a
row must not have more figures than a number is read from.
-/
import Mathlib.Data.Char
import Mathlib.Data.List.Shortlex
import Spreadsheet.Proofs.Reference.Notation

namespace Spreadsheet

-- ====================================================== labels

namespace Column

theorem label_natCast (n : Nat) : label n = lettersOf n := by
  rw [label, if_neg (by omega), Int.toNat_natCast]

/-- The last letter of a label has the number of its column in the
group. -/
theorem toNat_last (n : Nat) : (Char.ofNat (65 + n % 26)).toNat = 65 + n % 26 := by
  have hall : ∀ k < 26, (Char.ofNat (65 + k)).toNat = 65 + k := by decide
  exact hall _ (Nat.mod_lt _ (by decide))

/-- The letters of a column stand for that column: the induction is on
the group that the column belongs to. -/
theorem ofLetters_lettersOf (n : Nat) : ofLetters (Text.ofChars (lettersOf n)) = n := by
  have hcode : ∀ n : Nat, (CodePoint.char (Char.ofNat (65 + n % 26))).code = 65 + n % 26 :=
    toNat_last
  induction n using lettersOf.induct with
  | case1 n hlow =>
      have hempty : ofLetters [] = -1 := rfl
      rw [lettersOf, if_pos hlow]
      refine (ofLetters_concat [] _).trans ?_
      rw [hempty, hcode]
      omega
  | case2 n hhigh ih =>
      rw [lettersOf, if_neg hhigh, Text.ofChars, List.map_append]
      refine (ofLetters_concat _ _).trans ?_
      rw [Text.ofChars] at ih
      rw [ih, hcode]
      omega

/-- What follows two words of one length does not change which of them
is first. -/
theorem shortlex_append {s t : List Char} (h : List.Shortlex (· < ·) s t) {a b : List Char}
    (hlength : a.length = b.length) : List.Shortlex (· < ·) (s ++ a) (t ++ b) := by
  rcases List.shortlex_def.mp h with hshorter | ⟨hsame, hlex⟩
  · refine .of_length_lt ?_
    rw [List.length_append, List.length_append]
    omega
  · refine .of_lex (by rw [List.length_append, List.length_append, hsame, hlength]) ?_
    clear h
    induction hlex with
    | nil => cases hsame
    | cons _ ih => exact .cons (ih (Nat.succ.inj hsame))
    | rel hlt => exact .rel hlt

/-- Labels come in the order of their columns: by length, and then by
letters. -/
theorem shortlex_lettersOf {m n : Nat} (h : m < n) :
    List.Shortlex (· < ·) (lettersOf m) (lettersOf n) := by
  have hlast : ∀ m n : Nat, m % 26 < n % 26 →
      Char.ofNat (65 + m % 26) < Char.ofNat (65 + n % 26) := by
    intro m n hlt
    show (Char.ofNat (65 + m % 26)).toNat < (Char.ofNat (65 + n % 26)).toNat
    rw [toNat_last, toNat_last]
    omega
  induction n using lettersOf.induct generalizing m with
  | case1 n hlow =>
      rw [lettersOf.eq_def m, if_pos (by omega), lettersOf.eq_def n, if_pos hlow,
        List.shortlex_singleton_iff]
      exact hlast m n (by omega)
  | case2 n hhigh ih =>
      rw [lettersOf.eq_def m, lettersOf.eq_def n, if_neg hhigh]
      split
      · -- one letter comes before two or more
        have hpos := List.length_pos_iff.mpr (lettersOf_ne_nil (n / 26 - 1))
        refine .of_length_lt ?_
        rw [List.length_append, List.length_singleton, List.length_singleton]
        omega
      · -- the group decides, or, in one group, the last letter
        rcases Nat.lt_or_ge (m / 26) (n / 26) with hgroup | hgroup
        · exact shortlex_append (ih (by omega)) rfl
        · rw [show m / 26 = n / 26 by omega]
          refine .append_left ?_ _
          rw [List.shortlex_singleton_iff]
          exact hlast m n (by omega)

theorem lt_iff_shortlex_label {m n : Nat} :
    m < n ↔ List.Shortlex (· < ·) (label m) (label n) := by
  rw [label_natCast, label_natCast]
  refine ⟨shortlex_lettersOf, fun h => ?_⟩
  rcases Nat.lt_trichotomy m n with hlt | rfl | hgt
  · exact hlt
  · exact absurd h (asymm h)
  · exact absurd h (asymm (shortlex_lettersOf hgt))

end Column

-- ====================================================== keys

namespace Reference

/-- The key of a place that can be named is read as that place. -/
theorem parse?_key {place : Reference} (h : place.Nameable) :
    parse? place.key = .ok (some place) := by
  have hcol := h.col
  have hrow := h.row
  rw [parse?_eq_some (split?_key h) (by rw [Text.ofChars, List.length_map]; exact h.short),
    Column.ofLetters_lettersOf, Decimal.valueOf_toDigits, Int.toNat_of_nonneg hcol,
    Int.toNat_of_nonneg hrow, Int.add_sub_cancel]

/-- Places that can be named are told apart by their keys. -/
theorem eq_of_key_eq {a b : Reference} (ha : a.Nameable) (hb : b.Nameable) (h : a.key = b.key) :
    a = b := by
  have hparse := parse?_key ha
  rw [h, parse?_key hb] at hparse
  exact (Option.some.inj (Except.ok.inj hparse)).symm

/-- Capital letters and figures are left as they are in upper case, so
the key of a place is a key of a store. -/
theorem upper_of_key {text : Text} (h : ∀ c ∈ text, isLetter c = true ∨ isFigure c = true) :
    Text.upper text = text := by
  have hpoint : ∀ c ∈ text, Text.onPoint Text.upperChar c = [c] := by
    intro c hc
    cases c with
    | char c => exact congrArg Text.ofChars (upperChar_of_key (h c hc))
    | surrogate n => rfl
  calc Text.upper text
      = text.flatMap fun c => [c] := List.flatMap_congr hpoint
    _ = text := List.flatMap_singleton' text

/-- Letters and plain figures are read as the place that they are the
key of. -/
theorem key_of_parse? {letters figures : Text} (hletters : letters ≠ []) (hfigures : figures ≠ [])
    (hall : ∀ c ∈ letters, isLetter c = true) (hall' : ∀ c ∈ figures, isFigure c = true)
    (hplain : Decimal.IsPlain figures) (hlimit : figures.length ≤ Decimal.maxDigits) :
    ∃ place, parse? (letters ++ figures) = .ok (some place) ∧ place.key = letters ++ figures := by
  have hupper : Text.upper (letters ++ figures) = letters ++ figures :=
    upper_of_key fun c hc => (List.mem_append.mp hc).imp (hall c) (hall' c)
  have hsplit := split?_append hletters hfigures hall hall'
  rw [← hupper] at hsplit
  exact ⟨_, parse?_eq_some hsplit hlimit,
    (key_of_parts_iff hletters hfigures hall hall').mpr hplain⟩

end Reference

-- ====================================================== both ways

open Column (label ofLetters)
open Reference (isLetter isFigure)

/-- Labels and columns, and keys and places, go both ways. A column has
a label, a word of capital letters that stands for this column; every
such word is the label of its column; and the labels come in the order
of the columns, by length and then by letters. A place that can be named
is read from its key, and letters with plain figures are the key of the
place that is read from them. -/
theorem label_and_key_inverse :
    (∀ n : Nat, label n ≠ [] ∧ (∀ c ∈ label n, isLetter c = true) ∧
        ofLetters (Text.ofChars (label n)) = n) ∧
      (∀ letters : Text, letters ≠ [] → (∀ c ∈ letters, isLetter c = true) →
        Text.ofChars (label (ofLetters letters)) = letters) ∧
      (∀ m n : Nat, m < n ↔ List.Shortlex (· < ·) (label m) (label n)) ∧
      (∀ place : Reference, place.Nameable → Reference.parse? place.key = .ok (some place)) ∧
      ∀ letters figures : Text, letters ≠ [] → figures ≠ [] → (∀ c ∈ letters, isLetter c = true) →
        (∀ c ∈ figures, isFigure c = true) → Decimal.IsPlain figures →
        figures.length ≤ Decimal.maxDigits →
        ∃ place, Reference.parse? (letters ++ figures) = .ok (some place) ∧
          place.key = letters ++ figures := by
  refine ⟨fun n => ?_, fun letters => Column.label_ofLetters,
    fun m n => Column.lt_iff_shortlex_label, fun place => Reference.parse?_key,
    fun letters figures => Reference.key_of_parse?⟩
  rw [Column.label_natCast]
  exact ⟨Column.lettersOf_ne_nil n, fun c => Column.isLetter_of_mem_lettersOf,
    Column.ofLetters_lettersOf n⟩

/-- Where two letters carry into three: the last column of two letters
and the first of three, the place in row zero of the one and the key of
a place in the other. -/
theorem label_and_key_inverse_carry :
    Text.ofChars (label (ofLetters "ZZ")) = "ZZ" ∧
      List.Shortlex (· < ·) (label (701 : Nat)) (label (702 : Nat)) ∧
      (Reference.mk 701 (-1)).Nameable ∧
      Reference.parse? (Reference.mk 701 (-1)).key = .ok (some ⟨701, -1⟩) ∧
      ∃ place, Reference.parse? ("AAA" ++ "100") = .ok (some place) ∧ place.key = "AAA" ++ "100" := by
  obtain ⟨-, hword, horder, hplace, hkey⟩ := label_and_key_inverse
  have hnameable : (Reference.mk 701 (-1)).Nameable := ⟨by decide, by decide, by decide⟩
  exact ⟨hword "ZZ" (by decide) (by decide), (horder 701 702).mp (by decide), hnameable,
    hplace _ hnameable, hkey "AAA" "100" (by decide) (by decide) (by decide) (by decide) (by decide)
      (by decide)⟩

end Spreadsheet
