/-
The longest number in front of a text.

# What may stand in front

In front of a text a number may stand as blanks, a sign, and a numeral or
the word Infinity (`Front`). The relation says what such a front is and
which number it stands for, without saying how it is found. One text stands
for one number only (`Front.unique`).

# The reader

The forgiving reader finds such a number whenever there is one, and takes no
less of the text than any other (`Front.exists_inFront?`); and what it takes
is such a number, with the value that it reads (`front_of_inFront?`). So it
reads the longest (`leading_longest`). A word and a numeral do not compete:
no numeral begins with a letter.

# Whole texts

A text is a number as a whole if it is blanks, a sign and a numeral, with
blanks after it (`isNumeric_iff`). Converted as a whole it is the same
number, unless a separator is among its blanks; then it is refused
(`whole?_of_isNumeric`). The pattern and the conversion disagree on nothing
else.
-/
import Mathlib.Data.List.DropRight
import Spreadsheet.Proofs.Decimal.Longest
import Spreadsheet.Proofs.Number.Display

namespace Spreadsheet.Number

open Decimal (Numeral takeSign)
open Text (isBlank dropBlanks isDigit)

variable {gap sign after text p q rest : Text} {negative : Bool} {n : Numeral} {x y : Binary64}

-- ====================================================== numbers in front

/-- A sign in front of a number, and whether it is a minus. -/
inductive IsSign : Text → Bool → Prop where
  | none : IsSign [] false
  | plus : IsSign [.char '+'] false
  | minus : IsSign [.char '-'] true

/-- Blanks, a sign and a numeral, and the number that they stand for. -/
inductive Written : Text → Binary64 → Prop where
  | intro {gap sign : Text} {negative : Bool} {n : Numeral}
      (hgap : ∀ c ∈ gap, isBlank c = true) (hsign : IsSign sign negative) (hn : n.Proper) :
      Written (gap ++ (sign ++ n.text)) (n.toBinary64 negative)

/-- What may stand in front of a text as a number, and that number. -/
inductive Front : Text → Binary64 → Prop where
  | numeral {p : Text} {x : Binary64} (h : Written p x) : Front p x
  | infinity {gap sign : Text} {negative : Bool} (hgap : ∀ c ∈ gap, isBlank c = true)
      (hsign : IsSign sign negative) :
      Front (gap ++ (sign ++ Text.ofString "Infinity")) (.infinite negative)

-- ====================================================== signs

theorem takeSign_cons {c : CodePoint} (hneplus : c ≠ .char '+') (hneminus : c ≠ .char '-')
    (rest : Text) : takeSign (c :: rest) = (false, c :: rest) := by
  unfold takeSign
  split
  · next h => exact absurd (List.cons.inj h).1 hneplus
  · next h => exact absurd (List.cons.inj h).1 hneminus
  · rfl

/-- Blanks of whichever kind are passed over, and a sign is taken off,
in front of what starts with neither. -/
theorem takeSign_dropWhile {blank : CodePoint → Bool} (hgap : ∀ c ∈ gap, blank c = true)
    (hsign : IsSign sign negative) (hplus : blank '+' = false) (hminus : blank '-' = false)
    {c : CodePoint} (hc : blank c = false) (hneplus : c ≠ .char '+') (hneminus : c ≠ .char '-')
    (rest : Text) :
    takeSign ((gap ++ (sign ++ c :: rest)).dropWhile blank) = (negative, c :: rest) := by
  rw [List.dropWhile_append_of_pos hgap]
  cases hsign with
  | plus =>
      rw [List.singleton_append, List.dropWhile_cons_of_neg (ne_true_of_eq_false hplus)]
      rfl
  | minus =>
      rw [List.singleton_append, List.dropWhile_cons_of_neg (ne_true_of_eq_false hminus)]
      rfl
  | none =>
      rw [List.nil_append, List.dropWhile_cons_of_neg (ne_true_of_eq_false hc)]
      exact takeSign_cons hneplus hneminus rest

/-- Every text is blanks, a sign, and what is left when these are taken
off. -/
theorem exists_sign (text : Text) :
    ∃ gap sign, (∀ c ∈ gap, isBlank c = true) ∧ IsSign sign (takeSign (dropBlanks text)).1 ∧
      text = gap ++ (sign ++ (takeSign (dropBlanks text)).2) := by
  obtain ⟨gap, hgap, htext, -⟩ := Text.exists_blanks text
  have hsplit : ∃ sign, IsSign sign (takeSign (dropBlanks text)).1 ∧
      dropBlanks text = sign ++ (takeSign (dropBlanks text)).2 := by
    generalize dropBlanks text = body
    unfold takeSign
    split
    · exact ⟨_, .plus, rfl⟩
    · exact ⟨_, .minus, rfl⟩
    · exact ⟨_, .none, rfl⟩
  obtain ⟨sign, hsign, hbody⟩ := hsplit
  exact ⟨gap, sign, hgap, hsign, by rw [← hbody]; exact htext⟩

/-- Blanks of whichever kind are passed over, and a sign is taken off a
numeral, whatever follows it. -/
theorem takeSign_numeral {blank : CodePoint → Bool} (hblank : ∀ c, blank c = true → isBlank c = true)
    (hgap : ∀ c ∈ gap, blank c = true) (hsign : IsSign sign negative) (hn : n.Proper)
    (rest : Text) :
    takeSign ((gap ++ (sign ++ (n.text ++ rest))).dropWhile blank) = (negative, n.text ++ rest) := by
  have hnone : ∀ c, isBlank c = false → blank c = false := fun c hc =>
    eq_false_of_ne_true fun h => ne_true_of_eq_false hc (hblank c h)
  obtain ⟨c, others, htext, hc⟩ := Numeral.head_text hn
  have hhead := Numeral.isBlank_of_mem_text hn c (htext ▸ List.mem_cons_self ..)
  rw [htext, List.cons_append]
  exact takeSign_dropWhile hgap hsign (hnone _ (by decide)) (hnone _ (by decide)) (hnone c hhead)
    (Decimal.ne_of_digit_or_point hc (by decide) (by decide))
    (Decimal.ne_of_digit_or_point hc (by decide) (by decide)) _

/-- Blanks and a sign are taken off the word Infinity, whatever follows
it. -/
theorem takeSign_infinity (hgap : ∀ c ∈ gap, isBlank c = true) (hsign : IsSign sign negative)
    (rest : Text) :
    takeSign (dropBlanks (gap ++ (sign ++ (Text.ofString "Infinity" ++ rest))))
      = (negative, Text.ofString "Infinity" ++ rest) :=
  takeSign_dropWhile hgap hsign (by decide) (by decide) (by decide) (by decide) (by decide) _

-- ====================================================== what the reader takes

/-- What the reader takes is a number that may stand in front of the
text. -/
theorem front_of_inFront? (h : inFront? text = some (x, rest)) :
    ∃ p, Front p x ∧ text = p ++ rest := by
  obtain ⟨gap, sign, hgap, hsign, htext⟩ := exists_sign text
  unfold inFront? at h
  dsimp only at h
  generalize (takeSign (dropBlanks text)).1 = negative at h hsign
  generalize (takeSign (dropBlanks text)).2 = body at h htext
  split at h
  · next hword =>
    obtain ⟨rfl, rfl⟩ := Prod.mk.inj (Option.some.inj h)
    obtain ⟨left, rfl⟩ := List.isPrefixOf_iff_prefix.mp hword
    refine ⟨_, .infinity hgap hsign, ?_⟩
    rw [htext, List.drop_left]
    simp only [List.append_assoc]
  · obtain ⟨⟨numeral, left⟩, hscan, hfound⟩ := Option.map_eq_some_iff.mp h
    obtain ⟨rfl, rfl⟩ := Prod.mk.inj hfound
    refine ⟨_, .numeral (.intro hgap hsign (Numeral.proper_of_scan hscan)), ?_⟩
    rw [htext, ← Numeral.text_append_of_scan hscan]
    simp only [List.append_assoc]

/-- With blanks and a sign in front of it, a numeral is where the reader
looks for one. -/
theorem inFront?_numeral (hgap : ∀ c ∈ gap, isBlank c = true) (hsign : IsSign sign negative)
    (hn : n.Proper) (rest : Text) :
    inFront? (gap ++ (sign ++ (n.text ++ rest)))
      = (Numeral.scan (n.text ++ rest)).map fun found =>
          (found.1.toBinary64 negative, found.2) := by
  have hsplit : takeSign (dropBlanks (gap ++ (sign ++ (n.text ++ rest))))
      = (negative, n.text ++ rest) :=
    takeSign_numeral (fun _ => id) hgap hsign hn rest
  unfold inFront?
  rw [hsplit]
  dsimp only
  rw [not_infinity hn, if_neg Bool.false_ne_true]

/-- A numeral with its sign is found, and no less is taken of the
text. -/
theorem Written.exists_inFront? (h : Written p x) (rest : Text) :
    ∃ y left, inFront? (p ++ rest) = some (y, left) ∧ left.length ≤ rest.length := by
  cases h with
  | @intro gap sign negative n hgap hsign hn =>
      obtain ⟨found, left, hscan, hlength⟩ := Numeral.scan_append hn rest
      have hsplit := congrArg List.length (Numeral.text_append_of_scan hscan)
      rw [List.length_append, List.length_append] at hsplit
      refine ⟨found.toBinary64 negative, left, ?_, by omega⟩
      rw [List.append_assoc, List.append_assoc, inFront?_numeral hgap hsign hn, hscan,
        Option.map_some]

/-- Alone or with blanks after it, what is written as a number is read
to its end. -/
theorem Written.inFront?_append (h : Written p x) (hafter : ∀ c ∈ after, isBlank c = true) :
    inFront? (p ++ after) = some (x, after) := by
  cases h with
  | @intro gap sign negative n hgap hsign hn =>
      rw [List.append_assoc, List.append_assoc, inFront?_numeral hgap hsign hn,
        Numeral.scan_append_blanks hafter, Numeral.scan_text hn]
      rfl

/-- A number in front of a text is found, or one that takes more of the
text. -/
theorem Front.exists_inFront? (h : Front p x) (rest : Text) :
    ∃ y left, inFront? (p ++ rest) = some (y, left) ∧ left.length ≤ rest.length := by
  cases h with
  | numeral h => exact h.exists_inFront? rest
  | @infinity gap sign negative hgap hsign =>
      refine ⟨.infinite negative, rest, ?_, le_rfl⟩
      unfold inFront?
      rw [List.append_assoc, List.append_assoc, takeSign_infinity hgap hsign]
      dsimp only
      rw [if_pos (List.isPrefixOf_iff_prefix.mpr (List.prefix_append ..)), List.drop_left]

/-- Alone, a number is read to its end as the number that it is. What
follows a number can only make the reader go on. -/
theorem Front.inFront?_eq (h : Front p x) : inFront? p = some (x, []) := by
  cases h with
  | numeral h =>
      have hread := h.inFront?_append (List.forall_mem_nil _)
      rwa [List.append_nil] at hread
  | infinity hgap hsign =>
      have hsplit := takeSign_infinity hgap hsign []
      rw [List.append_nil] at hsplit
      unfold inFront?
      rw [hsplit]
      rfl

/-- What stands in front of a text as a number is one number only:
alone, it is read to its end, and there is one reading. -/
theorem Front.unique (h : Front p x) (h' : Front p y) : x = y := by
  have hread := h.inFront?_eq
  rw [h'.inFront?_eq] at hread
  exact (Prod.mk.inj (Option.some.inj hread)).1.symm

/-- A number in front of a text that is as long as any other there. Two
of one length are the same, so there is one at most. -/
def IsLongest (text p : Text) (x : Binary64) : Prop :=
  Front p x ∧ p <+: text ∧ ∀ q y, Front q y → q <+: text → q.length ≤ p.length

/-- What the reader takes is the longest: every number in front of the
text is a part of the one that is read. -/
theorem isLongest_of_inFront? (h : inFront? text = some (x, rest)) :
    ∃ p, IsLongest text p x ∧ text = p ++ rest := by
  obtain ⟨p, hp, rfl⟩ := front_of_inFront? h
  refine ⟨p, ⟨hp, List.prefix_append .., fun q y hq hprefix => ?_⟩, rfl⟩
  obtain ⟨left, hleft⟩ := hprefix
  obtain ⟨z, tail, hread, hlength⟩ := hq.exists_inFront? left
  rw [hleft, h] at hread
  obtain ⟨-, rfl⟩ := Prod.mk.inj (Option.some.inj hread)
  have hsplit := congrArg List.length hleft
  rw [List.length_append, List.length_append] at hsplit
  omega

/-- The reader reads a number exactly if that number is the longest in
front. -/
theorem leading?_eq_some_iff : leading? text = some x ↔ ∃ p, IsLongest text p x := by
  rw [leading?_eq, Option.map_eq_some_iff]
  constructor
  · rintro ⟨⟨x, rest⟩, hread, rfl⟩
    obtain ⟨p, hp, -⟩ := isLongest_of_inFront? hread
    exact ⟨p, hp⟩
  · rintro ⟨p, hp, ⟨rest, rfl⟩, hmax⟩
    obtain ⟨y, left, hread, -⟩ := hp.exists_inFront? rest
    obtain ⟨q, ⟨hq, hprefix, hmax'⟩, -⟩ := isLongest_of_inFront? hread
    -- two prefixes of one length are the same
    have hsame : q = p := by
      refine (List.prefix_of_prefix_length_le hprefix (List.prefix_append ..)
        (hmax q y hq hprefix)).eq_of_length ?_
      exact le_antisymm (hmax q y hq hprefix) (hmax' p x hp (List.prefix_append ..))
    rw [hsame] at hq
    exact ⟨(y, left), hread, hq.unique hp⟩

/-- The reader finds nothing exactly if no number stands in front. Short
of that it takes one, be it only a digit. -/
theorem leading?_eq_none_iff : leading? text = none ↔ ∀ p x, Front p x → ¬ p <+: text := by
  rw [leading?_eq, Option.map_eq_none_iff]
  constructor
  · intro h p x hp hprefix
    obtain ⟨rest, rfl⟩ := hprefix
    obtain ⟨y, left, hread, -⟩ := hp.exists_inFront? rest
    rw [h] at hread
    cases hread
  · intro h
    rw [Option.eq_none_iff_forall_ne_some]
    rintro ⟨x, rest⟩ hread
    obtain ⟨p, hp, hsplit⟩ := front_of_inFront? hread
    exact h p x hp ⟨rest, hsplit.symm⟩

/-- No number in front of a text is NaN. -/
theorem Front.ne_nan (h : Front p x) : x ≠ .nan := by
  cases h with
  | numeral h =>
      cases h
      exact Binary64.ofDecimal_ne_nan _ _ _
  | infinity => exact nofun

-- ====================================================== whole texts

/-- What is written as a number ends in no blank, so blanks after it are
all that is dropped. -/
theorem Written.rdropWhile_append (h : Written p x) (hafter : ∀ c ∈ after, isBlank c = true) :
    (p ++ after).rdropWhile isBlank = p := by
  have hdrop : (p ++ after).rdropWhile isBlank = p.rdropWhile isBlank := by
    rw [List.rdropWhile, List.reverse_append,
      List.dropWhile_append_of_pos fun c hc => hafter c (List.mem_reverse.mp hc)]
    rfl
  rw [hdrop, List.rdropWhile_eq_self_iff]
  intro hne
  cases h with
  | @intro gap sign negative n hgap hsign hn =>
      have htext : n.text ≠ [] := Numeral.text_ne_nil_of_scan (Numeral.scan_text hn)
      rw [List.getLast_append_of_ne_nil _ (List.append_ne_nil_of_right_ne_nil _ htext),
        List.getLast_append_of_ne_nil _ htext, Numeral.isBlank_of_mem_text hn _ (List.getLast_mem _)]
      exact Bool.false_ne_true

/-- A text is a number as a whole if it is blanks, a sign and a numeral,
with blanks after it. -/
theorem exists_written_iff : isNumeric text = true ↔
    ∃ p x after, Written p x ∧ (∀ c ∈ after, isBlank c = true) ∧ text = p ++ after := by
  constructor
  · intro h
    obtain ⟨gap, sign, hgap, hsign, htext⟩ := exists_sign text
    unfold isNumeric at h
    split at h
    · cases h
    · next n after hscan =>
      refine ⟨_, _, after, .intro hgap hsign (Numeral.proper_of_scan hscan),
        List.all_eq_true.mp h, ?_⟩
      rw [List.append_assoc, List.append_assoc, Numeral.text_append_of_scan hscan]
      exact htext
  · rintro ⟨p, x, after, ⟨hgap, hsign, hn⟩, hafter, rfl⟩
    have hsplit := takeSign_numeral (fun _ => id) hgap hsign hn after
    unfold isNumeric dropBlanks
    rw [List.append_assoc, List.append_assoc, hsplit, Numeral.scan_append_blanks hafter,
      Numeral.scan_text hn]
    exact List.all_eq_true.mpr hafter

/-- A text is a number as a whole if it is written as one up to the
blanks at its end. -/
theorem isNumeric_iff : isNumeric text = true ↔ ∃ x, Written (text.rdropWhile isBlank) x := by
  rw [exists_written_iff]
  constructor
  · rintro ⟨p, x, after, hp, hafter, rfl⟩
    exact ⟨x, by rwa [hp.rdropWhile_append hafter]⟩
  · intro ⟨x, hx⟩
    exact ⟨_, x, text.rtakeWhile isBlank, hx, fun c => List.mem_rtakeWhile_imp,
      (List.rdropWhile_append_rtakeWhile ..).symm⟩

-- ====================================================== conversion

/-- An information separator, a blank that may not stand around a
number. -/
def isSeparator (c : CodePoint) : Bool := c.within '\x1c' '\x1f'

/-- A text that is a number as a whole and holds a separator, which is
then at one of its ends. -/
def Refused (text : Text) : Prop :=
  isNumeric text = true ∧ ∃ c ∈ text, isSeparator c = true

instance (text : Text) : Decidable (Refused text) := inferInstanceAs (Decidable (_ ∧ _))

theorem isBlank_of_isSeparator {c : CodePoint} (hc : isSeparator c = true) :
    isBlank c = true := by
  rw [isSeparator, CodePoint.within, Bool.and_eq_true, decide_eq_true_eq, decide_eq_true_eq] at hc
  have hlast : c.code ≤ 32 := hc.2.trans (by decide)
  exact List.any_eq_true.mpr ⟨(28, 32), by decide,
    Bool.and_eq_true_iff.mpr ⟨decide_eq_true hc.1, decide_eq_true hlast⟩⟩

/-- Blanks are margins unless there is a separator among them. -/
theorem all_isMargin_iff {w : Text} (hw : ∀ c ∈ w, isBlank c = true) :
    w.all isMargin = true ↔ ∀ c ∈ w, isSeparator c = false := by
  rw [List.all_eq_true]
  refine forall₂_congr fun c hc => ?_
  rw [isMargin, hw c hc, Bool.true_and, Bool.not_eq_true']
  rfl

/-- In a number with blanks around it the separators are among the
blanks. -/
theorem forall_not_separator_iff (hgap : ∀ c ∈ gap, isBlank c = true) (hsign : IsSign sign negative)
    (hn : n.Proper) (hafter : ∀ c ∈ after, isBlank c = true) :
    (∀ c ∈ gap ++ (sign ++ (n.text ++ after)), isSeparator c = false) ↔
      (gap.all isMargin && after.all isMargin) = true := by
  have hmark : ∀ c ∈ sign, isSeparator c = false := by
    cases hsign with
    | none => exact List.forall_mem_nil _
    | plus => decide
    | minus => decide
  have htext : ∀ c ∈ n.text, isSeparator c = false := fun c hc =>
    eq_false_of_ne_true fun h =>
      ne_true_of_eq_false (Numeral.isBlank_of_mem_text hn c hc) (isBlank_of_isSeparator h)
  rw [List.forall_mem_append, List.forall_mem_append, List.forall_mem_append, Bool.and_eq_true,
    all_isMargin_iff hgap, all_isMargin_iff hafter]
  exact ⟨fun ⟨hfront, _, _, hend⟩ => ⟨hfront, hend⟩,
    fun ⟨hfront, hend⟩ => ⟨hfront, hmark, htext, hend⟩⟩

/-- What starts with a blank starts with no numeral. Blanks are dropped
before the scan, never by it. -/
theorem scan_blank_cons {c : CodePoint} (hc : isBlank c = true) (rest : Text) :
    Numeral.scan (c :: rest) = none := by
  cases hscan : Numeral.scan (c :: rest) with
  | none => rfl
  | some found =>
      obtain ⟨n, left⟩ := found
      have hn := Numeral.proper_of_scan hscan
      obtain ⟨d, others, htext, -⟩ := Numeral.head_text hn
      have hsplit := Numeral.text_append_of_scan hscan
      rw [htext] at hsplit
      obtain rfl := (List.cons.inj hsplit).1
      rw [Numeral.isBlank_of_mem_text hn d (htext ▸ List.mem_cons_self ..)] at hc
      cases hc

/-- A text that is a number as a whole is converted if all its blanks
are margins, and refused otherwise. -/
theorem whole?_append (hgap : ∀ c ∈ gap, isBlank c = true) (hsign : IsSign sign negative)
    (hn : n.Proper) (hafter : ∀ c ∈ after, isBlank c = true) :
    whole? (gap ++ (sign ++ (n.text ++ after)))
      = if gap.all isMargin && after.all isMargin then some (n.toBinary64 negative) else none := by
  cases hmargin : gap.all isMargin with
  | true =>
      have hsplit : takeSign ((gap ++ (sign ++ (n.text ++ after))).dropWhile isMargin)
          = (negative, n.text ++ after) :=
        takeSign_numeral (fun c => Bool.and_elim_left) (List.all_eq_true.mp hmargin) hsign hn after
      unfold whole?
      rw [hsplit]
      dsimp only
      rw [Numeral.scan_append_blanks hafter, Numeral.scan_text hn]
      rfl
  | false =>
      -- the first blank that is no margin stands where the sign or the numeral should
      have hstop : gap.dropWhile isMargin ≠ [] := by
        rw [Ne, List.dropWhile_eq_nil_iff, ← List.all_eq_true, hmargin]
        exact Bool.false_ne_true
      obtain ⟨c, left, hleft⟩ := List.exists_cons_of_ne_nil hstop
      have hblank : isBlank c = true :=
        hgap c (List.dropWhile_subset _ (hleft ▸ List.mem_cons_self ..))
      unfold whole?
      rw [Text.dropWhile_append_of_stop hstop, hleft, List.cons_append,
        takeSign_cons (Text.ne_of_isBlank hblank (by decide))
          (Text.ne_of_isBlank hblank (by decide))]
      dsimp only
      rw [scan_blank_cons hblank]
      rfl

/-- Without blanks around it, a numeral with its sign is converted. -/
theorem whole?_signed (hsign : IsSign sign negative) (hn : n.Proper) :
    whole? (sign ++ n.text) = some (n.toBinary64 negative) := by
  have hwhole := whole?_append (List.forall_mem_nil _) hsign hn (List.forall_mem_nil _)
  rw [List.nil_append, List.append_nil] at hwhole
  exact hwhole

/-- The number that is written in front of a text is read without its
blanks, and there is no refusing it: a numeral holds no separator. -/
theorem Written.whole?_dropBlanks (h : Written p x) : whole? (dropBlanks p) = some x := by
  cases h with
  | @intro gap sign negative n hgap hsign hn =>
      obtain ⟨c, others, htext, hc⟩ := Numeral.head_text hn
      have hhead := Numeral.isBlank_of_mem_text hn c (htext ▸ List.mem_cons_self ..)
      have hdrop : dropBlanks (gap ++ (sign ++ n.text)) = sign ++ n.text := by
        unfold dropBlanks
        rw [List.dropWhile_append_of_pos hgap, htext]
        cases hsign with
        | none => exact List.dropWhile_cons_of_neg (ne_true_of_eq_false hhead)
        | plus => exact List.dropWhile_cons_of_neg (by decide)
        | minus => exact List.dropWhile_cons_of_neg (by decide)
      rw [hdrop, whole?_signed hsign hn]

/-- A text that is a number as a whole is converted to the number in
front of it, unless there is a separator at one of its ends. -/
theorem whole?_of_isNumeric (h : isNumeric text = true) :
    (∃ x, leading? text = some x) ∧
      whole? text = if Refused text then none else leading? text := by
  obtain ⟨p, x, after, hp, hafter, rfl⟩ := exists_written_iff.mp h
  have hread : leading? (p ++ after) = some x := by
    rw [leading?_eq, hp.inFront?_append hafter, Option.map_some]
  refine ⟨⟨x, hread⟩, ?_⟩
  obtain ⟨hgap, hsign, hn⟩ := hp
  have hiff := forall_not_separator_iff hgap hsign hn hafter
  have hwhole := whole?_append hgap hsign hn hafter
  rw [List.append_assoc, List.append_assoc] at h hread ⊢
  rw [hread, hwhole]
  split
  · next hmargins =>
    rw [if_neg]
    intro ⟨_, c, hc, hseparator⟩
    rw [hiff.mpr hmargins c hc] at hseparator
    cases hseparator
  · next hmargins =>
    rw [if_pos]
    by_contra hrefused
    refine hmargins (hiff.mp fun c hc => eq_false_of_ne_true fun hseparator => ?_)
    exact hrefused ⟨h, c, hc, hseparator⟩

/-- The forgiving reader takes the longest number in front of a text,
and finds none if there is none in front; what it takes is converted
without a fault and is never NaN. Of a text that is a number as a whole
it takes all but the blanks at the end. -/
theorem leading_longest (text : Text) :
    (leading? text = none ↔ ∀ p x, Front p x → ¬ p <+: text) ∧
    (∀ x, leading? text = some x ↔ ∃ p, IsLongest text p x) ∧
    (∀ p x, Written p x → whole? (dropBlanks p) = some x) ∧
    ofContent? (.text text) = .ok (leading? text) ∧
    leading? text ≠ some .nan ∧
    (isNumeric text = true ↔ ∃ x, Written (text.rdropWhile isBlank) x) ∧
    (isNumeric text = true →
      ∃ x, leading? text = some x ∧ IsLongest text (text.rdropWhile isBlank) x) := by
  refine ⟨leading?_eq_none_iff, fun x => leading?_eq_some_iff,
    fun p x h => h.whole?_dropBlanks, rfl, fun hread => ?_, isNumeric_iff, fun h => ?_⟩
  · obtain ⟨p, hp, -⟩ := leading?_eq_some_iff.mp hread
    exact hp.ne_nan rfl
  · obtain ⟨p, x, after, hp, hafter, rfl⟩ := exists_written_iff.mp h
    have hread := hp.inFront?_append hafter
    obtain ⟨q, hq, hsplit⟩ := isLongest_of_inFront? hread
    obtain rfl := List.append_cancel_right hsplit
    rw [hp.rdropWhile_append hafter]
    exact ⟨x, by rw [leading?_eq, hread, Option.map_some], hq⟩

/-- A mark without digits after it is left behind. -/
example : (inFront? (Text.ofString " -.5e+x")).map Prod.snd = some (Text.ofString "e+x") := by
  decide

end Spreadsheet.Number
