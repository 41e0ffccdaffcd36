/-
Pieces and blanks that are put in after them.

# Kind by kind

A token that is found in front of a text is found there when blanks are put
in after it, and a kind that goes before it in the order does not turn up
because of them. Both have to be shown for every kind. For numbers they hold
since the longest numeral is taken and no blank stands in one: a numeral
that turned up would have been there before.

# Ranges

For ranges it takes more, since blanks may stand around a colon: a colon
that belongs to no range is no token, so it does not occur in a text that
splits into tokens (`lexemesOf_colon`). Here the tokens of what follows come
in: the text after the piece is known to split, and a range that the blanks
made possible would have its colon there.

# Together

The kinds come together in `piece?_append`. The one exception is a range
that left out the blank in front of an operand; it stays a range, and an
operand comes next in either case.
-/
import Spreadsheet.Proofs.Formula.Boundary

namespace Spreadsheet.Lexer

open Text (isBlank dropBlanks exists_blanks Padded isDigit isDigit_of_isBlank)
open Decimal (Numeral)

variable {token rest rest' cs ds left before tail : Text}

-- ====================================================== numbers

/-- The length of a number is that of a numeral in front of the text. -/
theorem exists_of_numberLength? {n : Nat} (h : numberLength? cs = some n) :
    ∃ m : Numeral, m.Proper ∧ m.text <+: cs ∧ m.text.length = n := by
  obtain ⟨⟨m, left⟩, hscan, rfl⟩ := Option.map_eq_some_iff.mp h
  exact ⟨m, Numeral.proper_of_scan hscan, ⟨left, Numeral.text_append_of_scan hscan⟩, rfl⟩

/-- A numeral in front of a text is no longer than the number that is
found. -/
theorem le_numberLength? {m : Numeral} (hm : m.Proper) (h : m.text <+: cs) :
    ∃ n, numberLength? cs = some n ∧ m.text.length ≤ n := by
  obtain ⟨left, rfl⟩ := h
  obtain ⟨found, left', hscan, hle⟩ := Numeral.scan_append hm left
  exact ⟨_, by rw [numberLength?, hscan]; rfl, hle⟩

/-- Blanks make no number longer. -/
theorem numberLength?_of_padded {n : Nat} (h : Padded cs ds) (hn : numberLength? ds = some n) :
    ∃ m, numberLength? cs = some m ∧ n ≤ m := by
  obtain ⟨m, hm, ⟨left, rfl⟩, rfl⟩ := exists_of_numberLength? hn
  obtain ⟨rest, rfl, -⟩ := h.exists_of_append (Numeral.isBlank_of_mem_text hm)
  exact le_numberLength? hm (List.prefix_append ..)

/-- Blanks make no number where there is none: they can only part the
characters of a numeral. -/
theorem numberLength?_none_of_padded (h : numberLength? cs = none) (hpadded : Padded cs ds) :
    numberLength? ds = none := by
  cases hn : numberLength? ds with
  | none => rfl
  | some n =>
      obtain ⟨m, hm, -⟩ := numberLength?_of_padded hpadded hn
      rw [h] at hm
      cases hm

/-- A number is as long with blanks put in after it. What stopped it
before still stands there, or a blank does. -/
theorem numberLength?_append (h : numberLength? (token ++ rest) = some token.length)
    (hrest : Padded rest rest') : numberLength? (token ++ rest') = some token.length := by
  obtain ⟨m, hm, hfront, hlength⟩ := exists_of_numberLength? h
  obtain rfl : m.text = token :=
    (List.prefix_of_prefix_length_le hfront (List.prefix_append ..) hlength.le).eq_of_length hlength
  obtain ⟨n, hn, hle⟩ := le_numberLength? hm (List.prefix_append m.text rest')
  obtain ⟨n', hn', hle'⟩ := numberLength?_of_padded (hrest.append m.text) hn
  rw [h] at hn'
  obtain rfl := Option.some.inj hn'
  rw [hn, Nat.le_antisymm hle hle']

-- ====================================================== names

/-- A name is as long with blanks put in after it, since a blank stands
inside no name. -/
theorem nameLength?_append (h : nameLength? (token ++ rest) = some token.length)
    (hrest : Padded rest rest') : nameLength? (token ++ rest') = some token.length := by
  obtain ⟨c, name, rfl⟩ := List.exists_cons_of_length_pos (nameLength?_pos h)
  rw [List.cons_append, nameLength?] at h ⊢
  split at h
  · next hc =>
    have hlength := Nat.succ.inj (Option.some.inj h)
    have hname : (name ++ rest).takeWhile inName = name :=
      (List.prefix_of_prefix_length_le (List.takeWhile_prefix _) (List.prefix_append ..)
        hlength.le).eq_of_length hlength
    have hinside : ∀ c ∈ name, inName c = true := fun c hmem =>
      List.mem_takeWhile_imp (hname.symm ▸ hmem)
    have hends : rest'.takeWhile inName = [] := by
      rw [List.takeWhile_append_of_pos hinside] at hname
      have hends : rest.takeWhile inName = [] := List.append_right_eq_self.mp hname
      rcases hrest.head?_cases with heq | ⟨b, left, rfl, hb⟩
      · cases rest' with
        | nil => rfl
        | cons d rest' =>
            obtain ⟨others, rfl⟩ := List.head?_eq_some_iff.mp heq.symm
            cases hd : inName d with
            | true => rw [List.takeWhile_cons_of_pos hd] at hends; cases hends
            | false => exact List.takeWhile_cons_of_neg (by simp [hd])
      · exact List.takeWhile_cons_of_neg (by simp [inName_of_isBlank hb])
    rw [if_pos hc, List.takeWhile_append_of_pos hinside, hends, List.append_nil]
    rfl
  · cases h

theorem nameLength?_none_cons {c : CodePoint} (h : nameLength? (c :: cs) = none) (ds : Text) :
    nameLength? (c :: ds) = none := by
  rw [nameLength?] at h ⊢
  split at h
  · cases h
  · next hstart => rw [if_neg hstart]

/-- A name is called if a parenthesis follows, with blanks in between or
without. -/
theorem nameLexeme_of_padded (h : Padded cs ds) (name : Text) :
    nameLexeme name ds = nameLexeme name cs := by
  unfold nameLexeme
  rw [h.head?_dropBlanks]

-- ====================================================== comparisons

theorem comparator?_singleton {c : CodePoint} {op : Comparator}
    (h : comparator? (c :: cs) = some op) (hlength : op.text.length = 1) :
    comparator? [c] = some op := by
  unfold comparator? at h
  split at h
  case h_9 => cases h
  all_goals
    next heq =>
      cases h
      cases heq
      first | exact absurd hlength (by decide) | rfl

theorem comparator?_singleton_none {c : CodePoint} (h : comparator? (c :: cs) = none) :
    comparator? [c] = none := by
  cases hop : comparator? [c] with
  | none => rfl
  | some op =>
      unfold comparator? at hop
      split at hop <;> cases hop <;> (unfold comparator? at h; split at h <;> simp_all)

/-- What follows the first character of a comparison is seen, or else a
blank. -/
theorem comparator?_cons_of_padded (h : Padded cs ds) (c : CodePoint) :
    comparator? (c :: ds) = comparator? (c :: cs) ∨
      comparator? (c :: ds) = comparator? [c] := by
  rcases h.head?_cases with heq | ⟨b, rest, rfl, hb⟩
  · left
    cases ds with
    | nil => rw [List.head?_eq_none_iff.mp heq.symm]
    | cons d ds =>
        obtain ⟨others, rfl⟩ := List.head?_eq_some_iff.mp heq.symm
        exact comparator?_cons_cons c d ds others
  · exact .inr (comparator?_cons_blank hb c rest)

/-- A comparison is the same with blanks put in after it. If it is of
one character, a blank is not the second one of a longer one. -/
theorem comparator?_append {op : Comparator} (h : comparator? (token ++ rest) = some op)
    (hlength : token.length = op.text.length) (hrest : Padded rest rest') :
    comparator? (token ++ rest') = some op := by
  have hpos : 0 < token.length := by
    rw [hlength]
    cases op <;> decide
  obtain ⟨c, token, rfl⟩ := List.exists_cons_of_length_pos hpos
  cases token with
  | cons d token => exact (comparator?_cons_cons c d _ _).trans h
  | nil =>
      rcases comparator?_cons_of_padded hrest c with heq | heq
      · exact heq.trans h
      · exact heq.trans (comparator?_singleton h hlength.symm)

theorem comparator?_none_of_padded {c : CodePoint} (h : comparator? (c :: cs) = none)
    (hpadded : Padded cs ds) : comparator? (c :: ds) = none :=
  (comparator?_cons_of_padded hpadded c).elim (·.trans h) (·.trans (comparator?_singleton_none h))

-- ====================================================== ranges

/-- A range takes in the blanks after it at most, or else an operand
comes next in either case. -/
theorem rangeLength?_append (h : rangeLength? (token ++ rest) = some token.length)
    (hrest : Padded rest rest') :
    (∃ k, rangeLength? (token ++ rest') = some (token.length + k) ∧
        ∀ c ∈ rest'.take k, isBlank c = true) ∨
      OperandNext rest ∧ ∃ n, rangeLength? (token ++ rest') = some n ∧
        OperandNext ((token ++ rest').drop n) := by
  obtain ⟨left, before, tail, m, hsplit, hleft, hbefore, hm, hlength⟩ := exists_of_rangeLength? h
  -- what the range holds up to its colon, and its second corner
  have hcolon : ∀ tail : Text, left ++ (before ++ .char ':' :: tail)
      = (left ++ (before ++ [.char ':'])) ++ tail := fun tail => by simp
  have hupTo : (left ++ (before ++ [.char ':']) : Text).length = left.length + before.length + 1 := by
    simp [Nat.add_assoc]
  rw [hcolon] at hsplit
  obtain ⟨corner, rfl⟩ : left ++ (before ++ [.char ':']) <+: token :=
    List.prefix_of_prefix_length_le ⟨tail, hsplit.symm⟩ (List.prefix_append ..) (by omega)
  rw [List.append_assoc] at hsplit
  obtain rfl := List.append_cancel_left hsplit
  rw [List.length_append, hupTo] at hlength
  obtain rfl := Nat.add_left_cancel hlength
  rw [List.append_assoc, ← hcolon, rangeLength?_colon hleft hbefore, List.length_append, hupTo]
  rcases cornerLength?_append hm hrest with ⟨k, hk, hblank⟩ | ⟨hnext, n, hn, hnext'⟩
  · rw [hk]
    exact .inl ⟨k, congrArg some (Nat.add_assoc ..).symm, hblank⟩
  · rw [hn]
    refine .inr ⟨hnext, _, rfl, ?_⟩
    rwa [hcolon, ← hupTo, List.drop_append, List.drop_eq_nil_of_le (Nat.le_add_right ..),
      Nat.add_sub_cancel_left, List.nil_append]

/-- What is in front of a character that does not belong to it ends
there. -/
theorem length_le_of_isPrefix {run : Text} {c : CodePoint} (hc : c ∉ run)
    (h : run <+: left ++ c :: cs) : run.length ≤ left.length := by
  by_contra hlonger
  have hfront : left ++ [c] <+: run :=
    List.prefix_of_prefix_length_le (by simp) h (by simp; omega)
  exact hc (hfront.subset (by simp))

/-- In front of a colon that belongs to no range, a piece of letters and
figures ends at the blanks in front of the colon. -/
theorem length_le_of_piece? {c : CodePoint} {lexeme : Option Lexeme} {n : Nat}
    (hleft : ∀ d ∈ c :: left, isAlphanumeric d = true) (hbefore : ∀ d ∈ before, isBlank d = true)
    (htail : cornerLength? tail = none)
    (h : piece? (c :: left ++ (before ++ .char ':' :: tail)) = some (lexeme, n)) :
    n ≤ (c :: left).length := by
  have hc := hleft c (List.mem_cons_self ..)
  have hrange := rangeLength?_colon hleft hbefore tail
  rw [htail, Option.map_none] at hrange
  -- the blank or the colon that ends the letters and figures
  obtain ⟨d, rest, hd, hblank⟩ : ∃ d rest, before ++ .char ':' :: tail = d :: rest ∧
      (isBlank d = true ∨ d = .char ':') := by
    cases before with
    | nil => exact ⟨_, _, rfl, .inr rfl⟩
    | cons b before => exact ⟨_, _, rfl, .inl (hbefore b (List.mem_cons_self ..))⟩
  rw [hd] at h hrange
  cases piece?_eq_some_iff.mp h with
  | blank hblank' =>
      rw [List.cons_append,
        blankLength?_of_not_isBlank (isBlank_of_isAlphanumeric hc)] at hblank'
      cases hblank'
  | string _ hstring =>
      rw [List.cons_append, stringLength?_of_isAlphanumeric hc] at hstring
      cases hstring
  | range _ _ hrange' =>
      rw [hrange] at hrange'
      cases hrange'
  | number _ _ _ hnumber =>
      obtain ⟨m, hm, hfront, rfl⟩ := exists_of_numberLength? hnumber
      refine length_le_of_isPrefix (fun hmem => ?_) hfront
      have hcolon : ∀ c ∈ m.text, c ≠ .char ':' :=
        Decimal.Numeral.forall_mem_text hm (fun c hc => by rintro rfl; cases hc) (by decide)
      rcases hblank with hblank | rfl
      · rw [Numeral.isBlank_of_mem_text hm d hmem] at hblank
        cases hblank
      · exact hcolon _ hmem rfl
  | name _ _ _ _ hname =>
      rw [List.cons_append, nameLength?] at hname
      split at hname
      · obtain rfl := Option.some.inj hname
        have hends : inName d = false := by
          rcases hblank with hblank | rfl
          · exact inName_of_isBlank hblank
          · decide
        refine Nat.succ_le_succ (length_le_of_isPrefix (fun hmem => ?_) (List.takeWhile_prefix _))
        rw [List.mem_takeWhile_imp hmem] at hends
        cases hends
      · cases hname
  | comparison _ _ _ _ _ hop =>
      rw [List.cons_append, comparator?_of_isAlphanumeric hc] at hop
      cases hop
  | symbol _ _ _ _ _ _ hsymbol =>
      rw [List.cons_append, symbol?_of_isAlphanumeric hc] at hsymbol
      cases hsymbol

/-- A text does not split into tokens if a colon in it belongs to no
range. -/
theorem lexemesOf_colon (hleft : ∀ c ∈ left, isAlphanumeric c = true)
    (hbefore : ∀ c ∈ before, isBlank c = true) (htail : cornerLength? tail = none) :
    lexemesOf (tokens (left ++ (before ++ .char ':' :: tail))) = none := by
  induction hlength : left.length using Nat.strongRecOn generalizing left with
  | ind length ih =>
    subst hlength
    cases left with
    | nil =>
        have hrange : rangeLength? ([] ++ ([] ++ .char ':' :: tail)) = _ :=
          rangeLength?_colon (by nofun) (by nofun) tail
        rw [htail, Option.map_none, List.nil_append, List.nil_append] at hrange
        rw [List.nil_append, lexemesOf_blanks_append hbefore, lexemesOf_tokens_cons]
        unfold piece?
        rw [hrange]
        rfl
    | cons c left =>
        rw [List.cons_append, lexemesOf_tokens_cons, ← List.cons_append]
        split
        · rfl
        · next lexeme n hpiece =>
          have hle := length_le_of_piece? hleft hbefore htail hpiece
          have hpos := (piece?_bounds hpiece).1
          rw [List.drop_append_of_le_length hle, ih _ (by rw [List.length_drop]; omega)
            (fun d hd => hleft d (List.mem_of_mem_drop hd)) rfl]
          rfl

/-- Blanks make no range where there is none, in a text that splits into
tokens. -/
theorem rangeLength?_none_of_padded (h : rangeLength? cs = none)
    (hlexemes : lexemesOf (tokens cs) ≠ none) (hpadded : Padded cs ds) :
    rangeLength? ds = none := by
  cases hn : rangeLength? ds with
  | none => rfl
  | some n =>
      obtain ⟨left, before, tail, m, rfl, hleft, hbefore, -, -⟩ := exists_of_rangeLength? hn
      obtain ⟨rest, rfl, hrest⟩ := hpadded.exists_of_append fun c hc =>
        isBlank_of_isAlphanumeric (hleft c hc)
      obtain ⟨gap, hgap, hsplit, -⟩ := exists_blanks rest
      have hcolon := hrest.head?_dropBlanks
      rw [dropBlanks, (Text.takeWhile_isBlank_cons hbefore (by decide) tail).2] at hcolon
      obtain ⟨tail', htail'⟩ := List.head?_eq_some_iff.mp hcolon.symm
      rw [htail'] at hsplit
      rw [hsplit, rangeLength?_colon hleft hgap, Option.map_eq_none_iff] at h
      rw [hsplit, lexemesOf_colon hleft hgap h] at hlexemes
      exact absurd rfl hlexemes

-- ====================================================== pieces

theorem blankLength?_none_cons {c : CodePoint} (h : blankLength? (c :: cs) = none) (ds : Text) :
    blankLength? (c :: ds) = none := by
  cases hc : isBlank c with
  | false => exact blankLength?_of_not_isBlank hc ds
  | true => rw [blankLength?_of_isBlank hc] at h; cases h

/-- A quote that no string starts with is no piece. -/
theorem piece?_quote {c : CodePoint} (hc : c = .char '"' ∨ c = .char '\'')
    (h : stringLength? (c :: cs) = none) : piece? (c :: cs) = none := by
  unfold piece?
  rw [h]
  rcases hc with rfl | rfl <;> rfl

/-- What starts with no string, and is a piece all the same, starts with
no quote. -/
theorem stringLength?_none_of_piece? {c : CodePoint} (h : stringLength? (c :: cs) = none)
    (hpiece : piece? (c :: cs) ≠ none) (ds : Text) : stringLength? (c :: ds) = none :=
  stringLength?_cons (fun hc => hpiece (piece?_quote (.inl hc) h))
    (fun hc => hpiece (piece?_quote (.inr hc) h)) ds

/-- A double quote with no other after it does not split into tokens. -/
theorem lexemesOf_quote (h : .char '"' ∉ cs) : lexemesOf (tokens (.char '"' :: cs)) = none := by
  have hstring : stringLength? (.char '"' :: cs) = none := by
    rw [stringLength?.eq_1, closingQuote_of_not_mem h, Option.map_none]
  rw [lexemesOf_tokens_cons, piece?_quote (.inl rfl) hstring]

/-- A token stays the token it is when blanks are put in after it. It
takes in some of these blanks at most. Or else it is a range that left
out the blank in front of an operand; then it is a range still, and an
operand comes next in either case. -/
theorem piece?_append {lexeme : Lexeme}
    (h : piece? (token ++ rest) = some (some lexeme, token.length))
    (hlexemes : lexemesOf (tokens rest) ≠ none) (hrest : Padded rest rest') :
    (∃ k, piece? (token ++ rest') = some (some lexeme, token.length + k) ∧
        ∀ c ∈ rest'.take k, isBlank c = true) ∨
      (∃ text, lexeme = .range text) ∧ OperandNext rest ∧
        ∃ text n, piece? (token ++ rest') = some (some (.range text), n) ∧
          OperandNext ((token ++ rest').drop n) := by
  obtain ⟨c, name, htoken⟩ := List.exists_cons_of_length_pos (piece?_bounds h).1
  have hcons : ∀ tail : Text, token ++ tail = c :: (name ++ tail) := fun tail => by
    rw [htoken, List.cons_append]
  have hall : lexemesOf (tokens (token ++ rest)) ≠ none := by
    rw [lexemesOf_append (htoken ▸ List.cons_ne_nil c name) h]
    simpa using hlexemes
  have htake : ∀ tail : Text, (token ++ tail).take token.length = token := fun tail =>
    List.take_left' rfl
  have hdrop : ∀ tail : Text, (token ++ tail).drop token.length = tail := fun tail =>
    List.drop_left' rfl
  -- a kind that is not in front of the token is not in front of it with blanks put in
  have hblank' : blankLength? (token ++ rest) = none → blankLength? (token ++ rest') = none := by
    rw [hcons, hcons]
    exact fun hblank => blankLength?_none_cons hblank _
  have hstring' : stringLength? (token ++ rest) = none → stringLength? (token ++ rest') = none := by
    rw [hcons] at h
    rw [hcons, hcons]
    exact fun hstring => stringLength?_none_of_piece? hstring (by rw [h]; exact nofun) _
  have hrange' : rangeLength? (token ++ rest) = none → rangeLength? (token ++ rest') = none :=
    fun hrange => rangeLength?_none_of_padded hrange hall (hrest.append token)
  have hnumber' : numberLength? (token ++ rest) = none → numberLength? (token ++ rest') = none :=
    fun hnumber => numberLength?_none_of_padded hnumber (hrest.append token)
  have hname' : nameLength? (token ++ rest) = none → nameLength? (token ++ rest') = none := by
    rw [hcons, hcons]
    exact fun hname => nameLength?_none_cons hname _
  have hop' : comparator? (token ++ rest) = none → comparator? (token ++ rest') = none := by
    rw [hcons, hcons]
    exact fun hop => comparator?_none_of_padded hop (hrest.append name)
  -- most tokens take nothing in
  have hsame : ∀ {lexeme : Lexeme}, Piece (token ++ rest') (some lexeme) token.length →
      ∃ k, Piece (token ++ rest') (some lexeme) (token.length + k) ∧
        ∀ c ∈ rest'.take k, isBlank c = true := fun hpiece => ⟨0, hpiece, by simp⟩
  simp only [piece?_eq_some_iff] at h ⊢
  generalize hn : token.length = n at h hsame ⊢
  cases h with
  | string hblank hstring =>
      subst hn
      rcases stringLength?_append hstring with hstays | ⟨left, rfl, hleft⟩
      · have hhead : rest'.head? = some (.char '"') → rest.head? = some (.char '"') := by
          rcases hrest.head?_cases with heq | ⟨b, tail, rfl, hb⟩
          · exact heq ▸ id
          · exact fun hquote => absurd (Option.some.inj hquote) (Text.ne_of_isBlank hb (by decide))
        have hpiece := Piece.string (hblank' hblank) (hstays rest' hhead)
        rw [htake] at hpiece ⊢
        exact .inl (hsame hpiece)
      · exact absurd (lexemesOf_quote hleft) hlexemes
  | range hblank hstring hrange =>
      subst hn
      rcases rangeLength?_append hrange hrest with ⟨k, hk, hblanks⟩ | ⟨hnext, n, hn, hnext'⟩
      · have hpiece := Piece.range (hblank' hblank) (hstring' hstring) hk
        rw [List.take_length_add_append, filter_append_blanks hblanks] at hpiece
        rw [htake]
        exact .inl ⟨k, hpiece, hblanks⟩
      · exact .inr ⟨⟨_, rfl⟩, hnext, _, n, .range (hblank' hblank) (hstring' hstring) hn, hnext'⟩
  | number hblank hstring hrange hnumber =>
      subst hn
      have hpiece := Piece.number (hblank' hblank) (hstring' hstring) (hrange' hrange)
        (numberLength?_append hnumber hrest)
      rw [htake] at hpiece ⊢
      exact .inl (hsame hpiece)
  | name hblank hstring hrange hnumber hname =>
      subst hn
      have hpiece := Piece.name (hblank' hblank) (hstring' hstring) (hrange' hrange)
        (hnumber' hnumber) (nameLength?_append hname hrest)
      rw [htake, hdrop, nameLexeme_of_padded hrest] at hpiece
      rw [htake, hdrop]
      exact .inl (hsame hpiece)
  | comparison hblank hstring hrange hnumber hname hop =>
      have hpiece := Piece.comparison (hblank' hblank) (hstring' hstring) (hrange' hrange)
        (hnumber' hnumber) (hname' hname) (comparator?_append hop hn hrest)
      exact .inl (hsame hpiece)
  | symbol hblank hstring hrange hnumber hname hop hsymbol =>
      rw [hcons, symbol?_cons c _ (name ++ rest'), ← hcons] at hsymbol
      have hpiece := Piece.symbol (hblank' hblank) (hstring' hstring) (hrange' hrange)
        (hnumber' hnumber) (hname' hname) (hop' hop) hsymbol
      exact .inl (hsame hpiece)

end Spreadsheet.Lexer
