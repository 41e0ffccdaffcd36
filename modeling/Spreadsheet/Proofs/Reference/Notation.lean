/-
Places and the keys that name them.

# Letters and figures

Letters stand for a column in base 26 without a zero, so no two words stand
for one column, and the letters of a column are the word that was read
(`label_ofLetters`). Figures stand for a row with or without zeros in front,
but the row is written without them (`toDigits_valueOf_iff`). So a key is
the key of the place that it names exactly when its row has no needless zero
(`key_of_parts_iff`).

# What is read

A reference is letters and figures, in either case, and perhaps a line feed
behind them, which is not part of the row (`split?_append_tail`). Nothing is
read from any other text, and that is no fault.

# The limit

A row that is too long is not turned into a number, and nothing else keeps a
key from being placed (`placed_iff`). The key of a place that was read is
never that long (`placed_key`): written again, a row has no more figures
than it was read from.
-/
import Mathlib.Algebra.Group.Nat.Defs
import Mathlib.Data.List.Induction
import Mathlib.Data.List.TakeWhile
import Spreadsheet.Proofs.Reference.Sorting
import Spreadsheet.Proofs.Text.Upper
import Spreadsheet.Reference

namespace Spreadsheet

open Reference (isLetter isFigure)

-- ====================================================== letters

theorem Reference.isLetter_iff {c : CodePoint} : isLetter c = true ↔ 65 ≤ c.code ∧ c.code ≤ 90 := by
  unfold isLetter CodePoint.within
  rw [Bool.and_eq_true, decide_eq_true_iff, decide_eq_true_iff]
  rfl

theorem Reference.isFigure_iff {c : CodePoint} : isFigure c = true ↔ 48 ≤ c.code ∧ c.code ≤ 57 := by
  unfold isFigure CodePoint.within
  rw [Bool.and_eq_true, decide_eq_true_iff, decide_eq_true_iff]
  rfl

/-- A character of the basic alphabet is known by its number. -/
theorem CodePoint.char_ofNat_code {c : CodePoint} (h : c.code < 0xD800) :
    .char (Char.ofNat c.code) = c := by
  have hc := CodePoint.ofNat_code c
  rwa [CodePoint.ofNat, if_pos h] at hc

namespace Column

/-- One more letter leads to a column of the group that those before it
name. -/
theorem ofLetters_concat (letters : Text) (c : CodePoint) :
    ofLetters (letters ++ [c]) = 26 * (ofLetters letters + 1) + (c.code - 65) := by
  unfold ofLetters
  rw [List.foldl_append, List.foldl_cons, List.foldl_nil]
  omega

theorem ofLetters_nonneg {letters : Text} (hne : letters ≠ [])
    (hletters : ∀ c ∈ letters, isLetter c = true) : 0 ≤ ofLetters letters := by
  induction letters using List.reverseRecOn with
  | nil => exact absurd rfl hne
  | append_singleton letters c ih =>
      have hc := Reference.isLetter_iff.mp (hletters c (by simp))
      rw [ofLetters_concat]
      cases letters with
      | nil =>
          have hempty : ofLetters [] = -1 := rfl
          omega
      | cons d letters =>
          have ih := ih (by simp) fun e he => hletters e (List.mem_append_left _ he)
          omega

/-- A word of letters is the label of the column that it stands for. The
induction is on the word from its end, where the last letter of a label
is found first. -/
theorem label_ofLetters {letters : Text} (hne : letters ≠ [])
    (hletters : ∀ c ∈ letters, isLetter c = true) :
    Text.ofChars (label (ofLetters letters)) = letters := by
  induction letters using List.reverseRecOn with
  | nil => exact absurd rfl hne
  | append_singleton letters c ih =>
      have hc := Reference.isLetter_iff.mp (hletters c (by simp))
      have hlast : ∀ n : Nat, n % 26 = c.code - 65 →
          CodePoint.char (Char.ofNat (65 + n % 26)) = c := by
        intro n hn
        rw [hn, show 65 + (c.code - 65) = c.code by omega]
        exact CodePoint.char_ofNat_code (by omega)
      have hindex := ofLetters_nonneg hne hletters
      rw [label, if_neg (Int.not_lt.mpr hindex), lettersOf]
      rw [ofLetters_concat] at hindex ⊢
      cases letters with
      | nil =>
          have hempty : ofLetters [] = -1 := rfl
          rw [hempty] at hindex ⊢
          rw [if_pos (by omega)]
          exact congrArg (· :: []) (hlast _ (by omega))
      | cons d letters =>
          -- the letters in front are the label of the column that is left after the last one
          have hfront : ∀ e ∈ d :: letters, isLetter e = true := fun e he =>
            hletters e (List.mem_append_left _ he)
          have hcol := ofLetters_nonneg (by simp) hfront
          have ih := ih (by simp) hfront
          rw [label, if_neg (Int.not_lt.mpr hcol)] at ih
          rw [if_neg (by omega),
            show (26 * (ofLetters (d :: letters) + 1) + ((c.code : Int) - 65)).toNat / 26 - 1
              = (ofLetters (d :: letters)).toNat by omega]
          unfold Text.ofChars at ih ⊢
          rw [List.map_append, ih]
          exact congrArg (d :: letters ++ [·]) (hlast _ (by omega))

theorem lettersOf_ne_nil (index : Nat) : lettersOf index ≠ [] := by
  rw [lettersOf]
  split <;> simp

theorem isLetter_of_mem_lettersOf {index : Nat} {c : Char} (h : c ∈ lettersOf index) :
    isLetter c = true := by
  have hlast : ∀ n : Nat, isLetter (Char.ofNat (65 + n % 26)) = true := by
    intro n
    have hall : ∀ k < 26, isLetter (Char.ofNat (65 + k)) = true := by decide
    exact hall _ (Nat.mod_lt _ (by decide))
  induction index using lettersOf.induct with
  | case1 index hlow =>
      rw [lettersOf, if_pos hlow] at h
      rw [List.mem_singleton.mp h]
      exact hlast index
  | case2 index hhigh ih =>
      rw [lettersOf, if_neg hhigh] at h
      rcases List.mem_append.mp h with h | h
      · exact ih h
      · rw [List.mem_singleton.mp h]
        exact hlast index

end Column

-- ====================================================== figures

namespace Decimal

/-- Figures without a zero in front, unless the zero is all there is. -/
def IsPlain (figures : Text) : Prop :=
  figures.head? = some (.char '0') → figures = "0"

instance (figures : Text) : Decidable (IsPlain figures) :=
  inferInstanceAs (Decidable (_ → _))

theorem digitValue_of_isFigure {c : CodePoint} (hc : isFigure c = true) :
    Text.digitValue c = c.code - 48 := by
  have h := Reference.isFigure_iff.mp hc
  unfold Text.digitValue Text.digitValue? Text.digitZeros
  rw [List.find?_cons_of_pos (by simp only [Bool.and_eq_true, decide_eq_true_eq]; omega)]
  rfl

theorem digitValue_lt {c : CodePoint} (hc : isFigure c = true) : Text.digitValue c < 10 := by
  have h := Reference.isFigure_iff.mp hc
  rw [digitValue_of_isFigure hc]
  omega

theorem digitChar_of_isFigure {c : CodePoint} (hc : isFigure c = true) :
    .char (Nat.digitChar (Text.digitValue c)) = c := by
  have h := Reference.isFigure_iff.mp hc
  refine CodePoint.eq_of_code_eq ?_
  show (Nat.digitChar (Text.digitValue c)).toNat = c.code
  rw [digitValue_of_isFigure hc, Nat.toNat_digitChar_of_lt_ten (by omega)]
  omega

/-- One more figure makes ten times the number, and the figure. -/
theorem valueOf_concat (figures : Text) (c : CodePoint) :
    valueOf (figures ++ [c]) = 10 * valueOf figures + Text.digitValue c := by
  unfold valueOf
  rw [List.foldl_append, List.foldl_cons, List.foldl_nil]

/-- The digits of a number stand for that number, by induction on its
digits from the last one. -/
theorem valueOf_toDigits (n : Nat) : valueOf (Text.ofChars (Nat.toDigits 10 n)) = n := by
  have hdigit : ∀ m < 10, Text.digitValue (.char (Nat.digitChar m)) = m := by decide
  induction n using Nat.base_induction 10 (by decide) with
  | single m hm =>
      rw [Nat.toDigits_of_lt_base hm]
      exact (valueOf_concat [] _).trans (by rw [hdigit m hm]; exact Nat.zero_add m)
  | digit m k hk hm ih =>
      rw [← Nat.toDigits_append_toDigits (by decide) hm hk, Nat.toDigits_of_lt_base hk,
        Text.ofChars, List.map_append]
      refine (valueOf_concat _ _).trans ?_
      rw [Text.ofChars] at ih
      rw [ih, hdigit k hk]

theorem isFigure_of_mem_toDigits {n : Nat} {c : Char} (h : c ∈ Nat.toDigits 10 n) :
    isFigure c = true := by
  have hdigit := Nat.isDigit_of_mem_toDigits (by decide) (by decide) h
  rw [Char.isDigit_iff_toNat] at hdigit
  exact Reference.isFigure_iff.mpr hdigit

/-- Figures stand for a number with at most as many digits. Zeros in
front make it shorter. -/
theorem valueOf_lt {figures : Text} (hfigures : ∀ c ∈ figures, isFigure c = true) :
    valueOf figures < 10 ^ figures.length := by
  induction figures using List.reverseRecOn with
  | nil => exact Nat.one_pos
  | append_singleton figures c ih =>
      have ih := ih fun d hd => hfigures d (List.mem_append_left _ hd)
      have hdigit := digitValue_lt (hfigures c (by simp))
      rw [valueOf_concat, List.length_append, List.length_singleton, Nat.pow_succ]
      omega

/-- Only zero is written with a zero in front, so a row that is written
so names another key than its number does. -/
theorem head?_toDigits {n : Nat} (h : (Nat.toDigits 10 n).head? = some '0') : n = 0 := by
  induction n using Nat.base_induction 10 (by decide) with
  | single m hm =>
      rw [Nat.toDigits_of_lt_base hm, List.head?_cons] at h
      have hdigit := congrArg Char.toNat (Option.some.inj h)
      rw [Nat.toNat_digitChar_of_lt_ten hm] at hdigit
      have hzero : '0'.toNat = 48 := rfl
      omega
  | digit m k hk hm ih =>
      rw [← Nat.toDigits_append_toDigits (by decide) hm hk,
        List.head?_append_of_ne_nil _ Nat.toDigits_ne_nil] at h
      exact absurd (ih h) (by omega)

/-- Plain figures are the figures of the number that they stand for.
Without a zero in front nothing is lost when they are read. -/
theorem toDigits_valueOf {figures : Text} (hne : figures ≠ [])
    (hfigures : ∀ c ∈ figures, isFigure c = true) (hplain : IsPlain figures) :
    Text.ofChars (Nat.toDigits 10 (valueOf figures)) = figures := by
  induction figures using List.reverseRecOn with
  | nil => exact absurd rfl hne
  | append_singleton figures c ih =>
      have hc := hfigures c (by simp)
      have hdigit := digitValue_lt hc
      rw [valueOf_concat]
      cases figures with
      | nil =>
          have hempty : valueOf [] = 0 := rfl
          rw [hempty, Nat.mul_zero, Nat.zero_add, Nat.toDigits_of_lt_base hdigit]
          exact congrArg (· :: []) (digitChar_of_isFigure hc)
      | cons d figures =>
          have hhead : d ≠ .char '0' := by
            rintro rfl
            exact absurd (congrArg List.length (hplain rfl)) (by simp [Text.ofString, Text.ofChars])
          have ih := ih (by simp) (fun e he => hfigures e (List.mem_append_left _ he))
            (fun h => absurd (Option.some.inj h) hhead)
          have hpos : 0 < valueOf (d :: figures) := by
            rcases Nat.eq_zero_or_pos (valueOf (d :: figures)) with hzero | hpos
            · rw [hzero, Nat.toDigits_zero] at ih
              exact absurd (List.cons.inj ih).1.symm hhead
            · exact hpos
          rw [← Nat.toDigits_append_toDigits (by decide) hpos hdigit,
            Nat.toDigits_of_lt_base hdigit]
          unfold Text.ofChars at ih ⊢
          rw [List.map_append, ih]
          exact congrArg (d :: figures ++ [·]) (digitChar_of_isFigure hc)

/-- Figures are written again as they were read exactly when they are
plain. -/
theorem toDigits_valueOf_iff {figures : Text} (hne : figures ≠ [])
    (hfigures : ∀ c ∈ figures, isFigure c = true) :
    Text.ofChars (Nat.toDigits 10 (valueOf figures)) = figures ↔ IsPlain figures := by
  refine ⟨fun h hzero => ?_, toDigits_valueOf hne hfigures⟩
  rw [← h] at hzero
  have hhead : (Nat.toDigits 10 (valueOf figures)).head? = some '0' := by
    unfold Text.ofChars at hzero
    rw [List.head?_map, Option.map_eq_some_iff] at hzero
    obtain ⟨c, hc, hchar⟩ := hzero
    rw [hc, CodePoint.char.inj hchar]
  rw [← h, head?_toDigits hhead]
  rfl

end Decimal

-- ====================================================== references

namespace Reference

/-- The parts of a reference: letters, figures, and perhaps a line
feed. -/
theorem split?_eq_some {text letters figures : Text} (h : split? text = some (letters, figures)) :
    letters ≠ [] ∧ figures ≠ [] ∧ (∀ c ∈ letters, isLetter c = true) ∧
      (∀ c ∈ figures, isFigure c = true) ∧
      (text = letters ++ figures ∨ text = letters ++ figures ++ ("\n" : Text)) := by
  unfold split? at h
  dsimp only at h
  split at h
  · cases h
  · next hparts =>
    obtain ⟨rfl, rfl⟩ := Prod.mk.inj (Option.some.inj h)
    simp only [Bool.or_eq_true, Bool.not_eq_true', not_or, Bool.not_eq_false,
      List.isEmpty_iff, beq_iff_eq] at hparts
    obtain ⟨⟨hletters, hfigures⟩, htail⟩ := hparts
    refine ⟨hletters, hfigures, fun c => List.mem_takeWhile_imp,
      fun c => List.mem_takeWhile_imp, ?_⟩
    have htext : text = text.takeWhile isLetter ++ (text.dropWhile isLetter).takeWhile isFigure
        ++ (text.dropWhile isLetter).dropWhile isFigure := by
      rw [List.append_assoc, List.takeWhile_append_dropWhile, List.takeWhile_append_dropWhile]
    refine htail.imp (fun hnone => ?_) fun hfeed => ?_
    · rw [hnone, List.append_nil] at htext
      exact htext
    · rw [hfeed] at htext
      exact htext

/-- Letters and figures are found where they stand, and so they are with
a line feed after them. -/
theorem split?_append_tail {letters figures tail : Text} (hletters : letters ≠ [])
    (hfigures : figures ≠ []) (hall : ∀ c ∈ letters, isLetter c = true)
    (hall' : ∀ c ∈ figures, isFigure c = true) (htail : tail = [] ∨ tail = "\n") :
    split? (letters ++ (figures ++ tail)) = some (letters, figures) := by
  have hstop : (figures ++ tail).takeWhile isLetter = [] ∧
      (figures ++ tail).dropWhile isLetter = figures ++ tail := by
    obtain ⟨c, figures, rfl⟩ := List.exists_cons_of_ne_nil hfigures
    have hc := isFigure_iff.mp (hall' c (List.mem_cons_self ..))
    have hno : ¬isLetter c = true := fun h => by
      have := isLetter_iff.mp h
      omega
    rw [List.cons_append, List.takeWhile_cons, List.dropWhile_cons, if_neg hno, if_neg hno]
    exact ⟨rfl, rfl⟩
  have hnone : tail.takeWhile isFigure = [] ∧ tail.dropWhile isFigure = tail := by
    rcases htail with rfl | rfl
    · exact ⟨rfl, rfl⟩
    · decide
  unfold split?
  dsimp only
  rw [List.takeWhile_append_of_pos hall, List.dropWhile_append_of_pos hall, hstop.1, hstop.2,
    List.append_nil, List.takeWhile_append_of_pos hall', List.dropWhile_append_of_pos hall',
    hnone.1, hnone.2, List.append_nil, if_neg]
  simpa [hletters, hfigures] using or_iff_not_imp_left.mp htail

theorem split?_append {letters figures : Text} (hletters : letters ≠ [])
    (hfigures : figures ≠ []) (hall : ∀ c ∈ letters, isLetter c = true)
    (hall' : ∀ c ∈ figures, isFigure c = true) :
    split? (letters ++ figures) = some (letters, figures) := by
  have hsplit := split?_append_tail hletters hfigures hall hall' (.inl rfl)
  rwa [List.append_nil] at hsplit

/-- A reference is read up to the longest row that is turned into a
number. -/
theorem parse?_of_split? {text letters figures : Text}
    (h : split? (Text.upper text) = some (letters, figures)) :
    parse? text = (Fault.natOf figures).map fun row =>
      some ⟨Column.ofLetters letters, (row : Int) - 1⟩ := by
  unfold parse?
  rw [h]
  dsimp only
  cases Fault.natOf figures <;> rfl

/-- A reference with a short row is read as its place. -/
theorem parse?_eq_some {text letters figures : Text}
    (h : split? (Text.upper text) = some (letters, figures))
    (hlimit : figures.length ≤ Decimal.maxDigits) :
    parse? text = .ok (some ⟨Column.ofLetters letters, Decimal.valueOf figures - 1⟩) := by
  rw [parse?_of_split? h, Fault.natOf, Decimal.natOf, if_pos hlimit]
  rfl

end Reference

/-- A text whose row, if it is a reference, is short enough to be turned
into a number. -/
def ShortRow (text : Text) : Prop :=
  ∀ letters figures, Reference.split? (Text.upper text) = some (letters, figures) →
    figures.length ≤ Decimal.maxDigits

/-- A key can be placed unless its row is too long. What is no reference
is placed as well, behind all that are. -/
theorem placed_iff {text : Text} : Placed text ↔ ShortRow text := by
  constructor
  · rintro ⟨place, hplace⟩ letters figures hsplit
    rw [Reference.parse?_of_split? hsplit, Fault.natOf, Decimal.natOf] at hplace
    split at hplace
    · next hlimit => exact hlimit
    · cases hplace
  · intro h
    cases hsplit : Reference.split? (Text.upper text) with
    | none =>
        refine ⟨none, ?_⟩
        unfold Reference.parse?
        rw [hsplit]
    | some parts => exact ⟨_, Reference.parse?_eq_some hsplit (h _ _ hsplit)⟩

namespace Reference

-- ====================================================== keys

/-- The key of a place that letters and figures name: the letters, and
the row in plain figures. -/
theorem key_of_parts {letters : Text} (figures : Text) (hne : letters ≠ [])
    (hletters : ∀ c ∈ letters, isLetter c = true) :
    key ⟨Column.ofLetters letters, Decimal.valueOf figures - 1⟩
      = letters ++ Text.ofChars (Nat.toDigits 10 (Decimal.valueOf figures)) := by
  have hrow : (Decimal.valueOf figures : Int) - 1 + 1 = Decimal.valueOf figures := by omega
  unfold key
  dsimp only
  rw [hrow, Decimal.integer, decide_eq_false (by omega), Int.natAbs_natCast]
  show Text.ofChars (_ ++ _) = _
  rw [Text.ofChars, List.map_append]
  exact congrArg (· ++ _) (Column.label_ofLetters hne hletters)

/-- Letters and figures are the key of the place that they name exactly
when the figures are plain. -/
theorem key_of_parts_iff {letters figures : Text} (hletters : letters ≠ []) (hfigures : figures ≠ [])
    (hall : ∀ c ∈ letters, isLetter c = true) (hall' : ∀ c ∈ figures, isFigure c = true) :
    key ⟨Column.ofLetters letters, Decimal.valueOf figures - 1⟩ = letters ++ figures ↔
      Decimal.IsPlain figures := by
  rw [key_of_parts figures hletters hall, List.append_cancel_left_eq,
    Decimal.toDigits_valueOf_iff hfigures hall']

/-- A place that a reference can name. -/
structure Nameable (place : Reference) : Prop where
  col : 0 ≤ place.col
  row : 0 ≤ place.row + 1
  short : (Nat.toDigits 10 (place.row + 1).toNat).length ≤ Decimal.maxDigits

/-- What is read is a place that can be named: its row was short when it
was read, and its column has a label. -/
theorem nameable_of_parse? {text : Text} {place : Reference} (h : parse? text = .ok (some place)) :
    place.Nameable := by
  cases hsplit : split? (Text.upper text) with
  | none =>
      unfold parse? at h
      rw [hsplit] at h
      cases h
  | some parts =>
      obtain ⟨letters, figures⟩ := parts
      obtain ⟨hletters, -, hall, hall', -⟩ := split?_eq_some hsplit
      have hlimit := placed_iff.mp ⟨_, h⟩ letters figures hsplit
      rw [parse?_eq_some hsplit hlimit] at h
      cases h
      refine ⟨Column.ofLetters_nonneg hletters hall, ?_, ?_⟩
      · show (0 : Int) ≤ (Decimal.valueOf figures : Int) - 1 + 1
        omega
      · show (Nat.toDigits 10 ((Decimal.valueOf figures : Int) - 1 + 1).toNat).length ≤ _
        rw [Int.sub_add_cancel, Int.toNat_natCast,
          Nat.length_toDigits_le_iff (by decide) (by decide)]
        exact Nat.lt_of_lt_of_le (Decimal.valueOf_lt hall')
          (Nat.pow_le_pow_right (by decide) hlimit)

/-- The key of a place that can be named: its letters, and its
figures. -/
theorem key_of_nameable {place : Reference} (h : place.Nameable) :
    place.key = Text.ofChars (Column.lettersOf place.col.toNat)
      ++ Text.ofChars (Nat.toDigits 10 (place.row + 1).toNat) := by
  have hcol := h.col
  have hrow := h.row
  have hdigits : (place.row + 1).natAbs = (place.row + 1).toNat := by omega
  unfold key Column.label Decimal.integer
  rw [if_neg (by omega), decide_eq_false (by omega), hdigits]
  exact List.map_append

/-- Capital letters and figures are in upper case already. -/
theorem upperChar_of_key {c : Char} (h : isLetter c = true ∨ isFigure c = true) :
    Text.upperChar c = [c] := by
  have hcode : (65 ≤ c.toNat ∧ c.toNat ≤ 90) ∨ 48 ≤ c.toNat ∧ c.toNat ≤ 57 :=
    h.imp isLetter_iff.mp isFigure_iff.mp
  have hbasic : c.toNat < 128 := by omega
  have hupper := Text.toNat_toUpper hbasic
  rw [if_neg (by omega)] at hupper
  rw [Text.upperChar, if_pos hbasic, Char.toNat_inj.mp hupper]

/-- The key of a place that can be named is read as a reference
again. -/
theorem split?_key {place : Reference} (h : place.Nameable) :
    split? (Text.upper place.key)
      = some (Text.ofChars (Column.lettersOf place.col.toNat),
          Text.ofChars (Nat.toDigits 10 (place.row + 1).toNat)) := by
  have hletters : ∀ c ∈ Column.lettersOf place.col.toNat, isLetter c = true :=
    fun c => Column.isLetter_of_mem_lettersOf
  have hfigures : ∀ c ∈ Nat.toDigits 10 (place.row + 1).toNat, isFigure c = true :=
    fun c => Decimal.isFigure_of_mem_toDigits
  have hupper : Text.upper place.key = place.key := by
    rw [key_of_nameable h]
    unfold Text.ofChars
    rw [← List.map_append]
    refine Text.upper_ofChars fun c hc => upperChar_of_key ?_
    exact (List.mem_append.mp hc).imp (hletters c) (hfigures c)
  rw [hupper, key_of_nameable h]
  refine split?_append ?_ ?_ (List.forall_mem_map.mpr hletters) (List.forall_mem_map.mpr hfigures)
  · rw [Text.ofChars, Ne, List.map_eq_nil_iff]
    exact Column.lettersOf_ne_nil _
  · rw [Text.ofChars, Ne, List.map_eq_nil_iff]
    exact Nat.toDigits_ne_nil

theorem placed_key {place : Reference} (h : place.Nameable) : Placed place.key := by
  refine placed_iff.mpr fun letters figures hsplit => ?_
  rw [split?_key h] at hsplit
  cases hsplit
  rw [Text.ofChars, List.length_map]
  exact h.short

end Reference

end Spreadsheet
