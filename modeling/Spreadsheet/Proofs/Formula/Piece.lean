/-
The first piece of a text, and blanks after the text.

# Kinds of pieces

The kinds are tried in an order, and a piece is the first kind that is found
(`Piece`). Knowing a piece is knowing its kind and that no kind before it is
there; this is what the proofs about pieces take apart
(`piece?_eq_some_iff`).

# Blanks at the end

Every kind of piece stops before the blanks at the end of a text, except
that a range which ends at its colon takes them in. A range is kept without
its blanks, so even then it is the same token: `piece?_append_blanks`. How
far such a range reaches is said up to the end of the text only (`SameEnd`):
it ends at the same place, or at the end of the text or behind it both
times.
-/
import Spreadsheet.Formula.Lexer
import Spreadsheet.Proofs.Decimal.Numeral

namespace Spreadsheet.Lexer

open Text (isBlank dropBlanks takeWhile_append_blanks dropWhile_append_blanks
  takeWhile_append_of_stop dropWhile_append_of_stop ne_of_isBlank)

variable {w : Text}

-- ====================================================== character classes

/-- A blank is neither a letter nor a figure, so blanks end every run of
those. -/
theorem isAlphanumeric_of_isBlank {c : CodePoint} (hc : isBlank c = true) :
    isAlphanumeric c = false := by
  obtain ⟨r, hr, hin⟩ := List.any_eq_true.mp hc
  have hA : 'A'.toNat = 65 := rfl
  have hZ : 'Z'.toNat = 90 := rfl
  have ha : 'a'.toNat = 97 := rfl
  have hz : 'z'.toNat = 122 := rfl
  have h0 : '0'.toNat = 48 := rfl
  have h9 : '9'.toNat = 57 := rfl
  simp only [Text.blankRanges, List.mem_cons, List.not_mem_nil, or_false] at hr
  simp only [Bool.and_eq_true, decide_eq_true_eq] at hin
  simp only [isAlphanumeric, isLetter, Reference.isFigure, CodePoint.within, hA, hZ, ha, hz, h0,
    h9, Bool.or_eq_false_iff, Bool.and_eq_false_iff, decide_eq_false_iff_not]
  rcases hr with rfl | rfl | rfl | rfl | rfl | rfl | rfl | rfl | rfl | rfl <;> omega

/-- A blank does not stand inside a name. -/
theorem inName_of_isBlank {c : CodePoint} (hc : isBlank c = true) : inName c = false := by
  have hunderscore : c ≠ .char '_' := ne_of_isBlank hc (by decide)
  have hpoint : c ≠ .char '.' := ne_of_isBlank hc (by decide)
  simp [inName, isAlphanumeric_of_isBlank hc, hunderscore, hpoint]

-- ====================================================== strings

theorem closingQuote_cons {c : CodePoint} (hc : c ≠ .char '"') (place : Nat) (last : Option Nat)
    (cs : Text) : closingQuote place last (c :: cs) = closingQuote (place + 1) last cs :=
  closingQuote.eq_4 place last c cs (fun h _ => hc h) (fun _ _ h _ => hc h)

/-- Where no quote is, no string is closed. -/
theorem closingQuote_of_not_mem {cs : Text} (h : .char '"' ∉ cs) (place : Nat)
    (last : Option Nat) : closingQuote place last cs = last := by
  induction cs generalizing place with
  | nil => rfl
  | cons c cs ih =>
      rw [closingQuote_cons (List.ne_of_not_mem_cons h).symm,
        ih (List.not_mem_of_not_mem_cons h)]

/-- Blanks hold no quote, so they close no string. -/
theorem closingQuote_blanks (hw : ∀ c ∈ w, isBlank c = true) (place : Nat) (last : Option Nat) :
    closingQuote place last w = last :=
  closingQuote_of_not_mem (fun hmem => absurd (hw _ hmem) (by decide)) place last

/-- A string is closed at the same place when blanks follow. The
induction is on the text; the search remembers the last quote it may
still fall back on. -/
theorem closingQuote_append_blanks (hw : ∀ c ∈ w, isBlank c = true) (place : Nat)
    (last : Option Nat) (cs : Text) :
    closingQuote place last (cs ++ w) = closingQuote place last cs := by
  induction place, last, cs using closingQuote.induct with
  | case1 place last => exact closingQuote_blanks hw place last
  | case2 place last =>
      cases w with
      | nil => rfl
      | cons c w =>
          have hc : c ≠ .char '"' := ne_of_isBlank (hw c (List.mem_cons_self ..)) (by decide)
          rw [List.singleton_append, closingQuote.eq_3, if_neg hc]
          rfl
  | case3 place last cs ih =>
      rw [List.cons_append, List.cons_append, closingQuote.eq_3, closingQuote.eq_3, if_pos rfl,
        if_pos rfl, ih]
  | case4 place last c cs hc =>
      rw [List.cons_append, List.cons_append, closingQuote.eq_3, closingQuote.eq_3, if_neg hc,
        if_neg hc]
  | case5 place last c cs hnil hcons ih =>
      have hc : c ≠ .char '"' := by
        rintro rfl
        cases cs with
        | nil => exact hnil rfl rfl
        | cons d cs => exact hcons d cs rfl rfl
      rw [List.cons_append, closingQuote_cons hc, closingQuote_cons hc, ih]

/-- A string is closed inside the text, if `last` was not the answer
already. -/
theorem closingQuote_le {place n : Nat} {last : Option Nat} {cs : Text}
    (h : closingQuote place last cs = some n) : last = some n ∨ n ≤ place + cs.length := by
  induction place, last, cs using closingQuote.induct with
  | case1 place last => exact .inl h
  | case2 place last =>
      obtain rfl := Option.some.inj h
      exact .inr (Nat.le_refl _)
  | case3 place last cs ih =>
      rw [closingQuote.eq_3, if_pos rfl] at h
      simp only [List.length_cons]
      rcases ih h with hlast | hle
      · obtain rfl := Option.some.inj hlast
        exact .inr (by omega)
      · exact .inr (by omega)
  | case4 place last c cs hc =>
      rw [closingQuote.eq_3, if_neg hc] at h
      obtain rfl := Option.some.inj h
      simp only [List.length_cons]
      exact .inr (by omega)
  | case5 place last c cs hnil hcons ih =>
      rw [closingQuote.eq_4 place last c cs hnil hcons] at h
      simp only [List.length_cons]
      rcases ih h with hlast | hle
      · exact .inl hlast
      · exact .inr (by omega)

theorem stringLength?_cons {c : CodePoint} (hdouble : c ≠ .char '"') (hsingle : c ≠ .char '\'')
    (cs : Text) : stringLength? (c :: cs) = none :=
  stringLength?.eq_3 (c :: cs) (fun _ h => hdouble (List.cons.inj h).1)
    (fun _ h => hsingle (List.cons.inj h).1)

/-- A string literal in front of a text is the same whether blanks
follow the text or not. -/
theorem stringLength?_append_blanks (hw : ∀ c ∈ w, isBlank c = true) {cs : Text} (hcs : cs ≠ []) :
    stringLength? (cs ++ w) = stringLength? cs := by
  obtain ⟨c, cs, rfl⟩ := List.exists_cons_of_ne_nil hcs
  rw [List.cons_append]
  by_cases hdouble : c = .char '"'
  · subst hdouble
    rw [stringLength?.eq_1, stringLength?.eq_1, closingQuote_append_blanks hw]
  · by_cases hsingle : c = .char '\''
    · subst hsingle
      have hquote : CodePoint.char '\'' ∉ w := fun hmem => absurd (hw _ hmem) (by decide)
      rw [stringLength?.eq_2, stringLength?.eq_2]
      simp only [List.contains_eq_mem, List.mem_append, hquote, or_false]
      split
      · next hmem =>
        rw [takeWhile_append_of_stop]
        intro hstop
        have hall := List.dropWhile_eq_nil_iff.mp hstop _ (of_decide_eq_true hmem)
        simp at hall
      · rfl
    · rw [stringLength?_cons hdouble hsingle, stringLength?_cons hdouble hsingle]

/-- A string ends inside the text, also one that falls back on an
earlier quote. -/
theorem stringLength?_le {cs : Text} {n : Nat} (h : stringLength? cs = some n) :
    n ≤ cs.length := by
  unfold stringLength? at h
  split at h
  · next cs =>
    obtain ⟨m, hm, rfl⟩ := Option.map_eq_some_iff.mp h
    have := (closingQuote_le hm).resolve_left (fun hnone => nomatch hnone)
    rw [List.length_cons]
    omega
  · next cs =>
    split at h
    · next hmem =>
      obtain rfl := Option.some.inj h
      have hstop : cs.dropWhile (· ≠ .char '\'') ≠ [] := by
        intro hnil
        have hall := List.dropWhile_eq_nil_iff.mp hnil _ (List.contains_iff_mem.mp hmem)
        simp at hall
      have hpos := List.length_pos_iff.mpr hstop
      have hsplit := congrArg List.length
        (List.takeWhile_append_dropWhile (p := (· ≠ .char '\'')) (l := cs))
      rw [List.length_append] at hsplit
      rw [List.length_cons]
      omega
    · cases h
  · cases h

-- ====================================================== ranges

/-- The length of a piece in front of `cs` once blanks follow: the same,
or past the end of `cs` both times. -/
def SameEnd (cs : Text) (m n : Nat) : Prop :=
  m = n ∨ cs.length ≤ m ∧ cs.length ≤ n

/-- What may follow the second corner of a range: no name and no
call. -/
theorem rangeEnd_blank {c : CodePoint} (hc : isBlank c = true) :
    (decide (c = .char '_') || decide (c = .char '.') || decide (c = .char '(')) = false := by
  have hunderscore : c ≠ .char '_' := ne_of_isBlank hc (by decide)
  have hpoint : c ≠ .char '.' := ne_of_isBlank hc (by decide)
  have hparen : c ≠ .char '(' := ne_of_isBlank hc (by decide)
  simp [hunderscore, hpoint, hparen]

/-- A range in front of a text stays a range when blanks follow the
text. It takes them in if it ends at a colon, and is as long as before
otherwise. -/
theorem rangeLength?_append_blanks (hw : ∀ c ∈ w, isBlank c = true) (cs : Text) :
    (rangeLength? cs = none ∧ rangeLength? (cs ++ w) = none) ∨
      ∃ m n, rangeLength? cs = some m ∧ rangeLength? (cs ++ w) = some n ∧ SameEnd cs m n := by
  have hleft : (cs ++ w).takeWhile isAlphanumeric = cs.takeWhile isAlphanumeric :=
    takeWhile_append_blanks (fun _ => isAlphanumeric_of_isBlank) hw cs
  have hrest : (cs ++ w).dropWhile isAlphanumeric = cs.dropWhile isAlphanumeric ++ w :=
    dropWhile_append_blanks (fun _ => isAlphanumeric_of_isBlank) hw cs
  have hsplit : cs.takeWhile isAlphanumeric ++ cs.dropWhile isAlphanumeric = cs :=
    List.takeWhile_append_dropWhile
  unfold rangeLength?
  simp only [hleft, hrest]
  generalize cs.takeWhile isAlphanumeric = left at hsplit
  generalize cs.dropWhile isAlphanumeric = rest at hsplit
  by_cases hcolon : rest.dropWhile isBlank = []
  · -- no colon: only blanks are left, and more of them do not help
    have hall := List.dropWhile_eq_nil_iff.mp hcolon
    have hall' : (rest ++ w).dropWhile isBlank = [] :=
      List.dropWhile_eq_nil_iff.mpr fun c hc => (List.mem_append.mp hc).elim (hall c) (hw c)
    rw [hcolon, hall']
    exact .inl ⟨rfl, rfl⟩
  · rw [dropWhile_append_of_stop hcolon, takeWhile_append_of_stop hcolon]
    have hsplit' : rest.takeWhile isBlank ++ rest.dropWhile isBlank = rest :=
      List.takeWhile_append_dropWhile
    generalize rest.takeWhile isBlank = before at hsplit'
    generalize rest.dropWhile isBlank = tail at hcolon hsplit'
    obtain ⟨c, tail, rfl⟩ := List.exists_cons_of_ne_nil hcolon
    rw [List.cons_append]
    by_cases hc : c = .char ':'
    · subst hc
      simp only
      by_cases hafter : tail.dropWhile isBlank = []
      · -- the colon ends the text, so the blanks become part of the range
        have hall := List.dropWhile_eq_nil_iff.mp hafter
        have hall' : ∀ c ∈ tail ++ w, isBlank c = true := fun c hc =>
          (List.mem_append.mp hc).elim (hall c) (hw c)
        rw [List.takeWhile_eq_self_iff.mpr hall, List.takeWhile_eq_self_iff.mpr hall', hafter,
          List.dropWhile_eq_nil_iff.mpr hall']
        refine .inr ⟨_, _, rfl, rfl, .inr ?_⟩
        rw [← hsplit, ← hsplit']
        simp only [List.length_append, List.length_cons, List.takeWhile_nil, List.length_nil]
        omega
      · rw [takeWhile_append_of_stop hafter, dropWhile_append_of_stop hafter,
          takeWhile_append_blanks (fun _ => isAlphanumeric_of_isBlank) hw,
          dropWhile_append_blanks (fun _ => isAlphanumeric_of_isBlank) hw]
        cases (tail.dropWhile isBlank).dropWhile isAlphanumeric with
        | nil =>
            -- the second corner ends the text: a blank after it is none of the characters that
            -- refuse it
            cases w with
            | nil => exact .inr ⟨_, _, rfl, rfl, .inl rfl⟩
            | cons d w =>
                have hd := rangeEnd_blank (hw d (List.mem_cons_self ..))
                simp only [List.nil_append, hd]
                exact .inr ⟨_, _, rfl, rfl, .inl rfl⟩
        | cons d rest =>
            -- the second corner is stopped by the same character with and without the blanks
            rw [List.cons_append]
            simp only
            split
            · split
              · exact .inl ⟨rfl, rfl⟩
              · exact .inr ⟨_, _, rfl, rfl, .inl rfl⟩
            · exact .inr ⟨_, _, rfl, rfl, .inl rfl⟩
    -- something else stands where the colon should, and still does with the blanks
    · left
      constructor
      · split
        · next h => exact absurd (List.cons.inj h).1 hc
        · rfl
      · split
        · next h => exact absurd (List.cons.inj h).1 hc
        · rfl

/-- Blanks are struck. -/
theorem filter_blanks (hw : ∀ c ∈ w, isBlank c = true) : w.filter (!isBlank ·) = [] :=
  List.filter_eq_nil_iff.mpr fun c hc => by simp [hw c hc]

theorem filter_append_blanks (hw : ∀ c ∈ w, isBlank c = true) (cs : Text) :
    (cs ++ w).filter (!isBlank ·) = cs.filter (!isBlank ·) := by
  rw [List.filter_append, filter_blanks hw, List.append_nil]

/-- Whichever way a range ends, it is the same range once its blanks are
struck. -/
theorem filter_take_of_sameEnd (hw : ∀ c ∈ w, isBlank c = true) {cs : Text} {m n : Nat}
    (h : SameEnd cs m n) :
    ((cs ++ w).take n).filter (!isBlank ·) = (cs.take m).filter (!isBlank ·) := by
  rw [List.take_append, filter_append_blanks fun c hc => hw c (List.mem_of_mem_take hc)]
  rcases h with rfl | ⟨hm, hn⟩
  · rfl
  · rw [List.take_of_length_le hm, List.take_of_length_le hn]

-- ====================================================== the other kinds

theorem blankLength?_of_isBlank {c : CodePoint} (hc : isBlank c = true) (cs : Text) :
    blankLength? (c :: cs) = some ((c :: cs).takeWhile isBlank).length := by
  unfold blankLength?
  rw [List.takeWhile_cons, if_pos hc]

theorem blankLength?_of_not_isBlank {c : CodePoint} (hc : isBlank c = false) (cs : Text) :
    blankLength? (c :: cs) = none := by
  simp [blankLength?, hc]

theorem numberLength?_append_blanks (hw : ∀ c ∈ w, isBlank c = true) (cs : Text) :
    numberLength? (cs ++ w) = numberLength? cs := by
  unfold numberLength?
  rw [Decimal.Numeral.scan_append_blanks hw, Option.map_map]
  rfl

theorem numberLength?_le {cs : Text} {n : Nat} (h : numberLength? cs = some n) :
    n ≤ cs.length := by
  obtain ⟨found, hfound, rfl⟩ := Option.map_eq_some_iff.mp h
  have hsplit := Decimal.Numeral.text_append_of_scan hfound
  rw [← hsplit, List.length_append]
  omega

/-- A name is as long when blanks follow. -/
theorem nameLength?_append_blanks (hw : ∀ c ∈ w, isBlank c = true) {cs : Text} (hcs : cs ≠ []) :
    nameLength? (cs ++ w) = nameLength? cs := by
  obtain ⟨c, cs, rfl⟩ := List.exists_cons_of_ne_nil hcs
  unfold nameLength?
  simp only [List.cons_append, takeWhile_append_blanks (fun _ => inName_of_isBlank) hw]

theorem nameLength?_le {cs : Text} {n : Nat} (h : nameLength? cs = some n) :
    n ≤ cs.length := by
  unfold nameLength? at h
  split at h
  · split at h
    · obtain rfl := Option.some.inj h
      exact Nat.succ_le_succ (List.takeWhile_sublist _).length_le
    · cases h
  · cases h

/-- Whether a name is called does not depend on blanks at the end, for
blanks before a parenthesis are skipped. -/
theorem nameLexeme_append_blanks (hw : ∀ c ∈ w, isBlank c = true) (name rest : Text) :
    nameLexeme name (rest ++ w) = nameLexeme name rest := by
  have hhead : (dropBlanks (rest ++ w)).head? = (dropBlanks rest).head? := by
    unfold dropBlanks
    by_cases hrest : rest.dropWhile isBlank = []
    · have hall := List.dropWhile_eq_nil_iff.mp hrest
      rw [hrest, List.dropWhile_eq_nil_iff.mpr fun c hc =>
        (List.mem_append.mp hc).elim (hall c) (hw c)]
    · obtain ⟨c, tail, htail⟩ := List.exists_cons_of_ne_nil hrest
      rw [dropWhile_append_of_stop hrest, htail, List.cons_append, List.head?_cons,
        List.head?_cons]
  unfold nameLexeme
  rw [hhead]

theorem comparator?_cons_cons (c d : CodePoint) (cs ds : Text) :
    comparator? (c :: d :: cs) = comparator? (c :: d :: ds) := by
  rw [comparator?.eq_def (c :: d :: cs)]
  split
  case h_9 => unfold comparator?; split <;> simp_all
  all_goals
    next h =>
      cases h
      unfold comparator?
      simp_all

/-- A comparison of two characters ends with one of two. -/
theorem comparator?_cons_of_ne {b : CodePoint} (heq : b ≠ .char '=') (hgt : b ≠ .char '>')
    (c : CodePoint) (cs : Text) : comparator? (c :: b :: cs) = comparator? [c] := by
  unfold comparator?
  split <;> simp_all

/-- A blank is not the second character of a comparison. -/
theorem comparator?_cons_blank {b : CodePoint} (hb : isBlank b = true) (c : CodePoint)
    (cs : Text) : comparator? (c :: b :: cs) = comparator? [c] :=
  comparator?_cons_of_ne (ne_of_isBlank hb (by decide)) (ne_of_isBlank hb (by decide)) c cs

/-- A comparison is the same when blanks follow, for a blank is not the
second character of one. -/
theorem comparator?_append_blanks (hw : ∀ c ∈ w, isBlank c = true) {cs : Text} (hcs : cs ≠ []) :
    comparator? (cs ++ w) = comparator? cs := by
  obtain ⟨c, cs, rfl⟩ := List.exists_cons_of_ne_nil hcs
  cases cs with
  | cons d cs => exact comparator?_cons_cons c d (cs ++ w) cs
  | nil =>
      cases w with
      | nil => rfl
      | cons b w => exact comparator?_cons_blank (hw b (List.mem_cons_self ..)) c w

theorem symbol?_cons (c : CodePoint) (cs ds : Text) : symbol? (c :: cs) = symbol? (c :: ds) := by
  unfold symbol?
  split <;> simp_all

-- ====================================================== pieces

/-- A piece in front of a text: its kind, and that no kind that goes
before it is there. -/
inductive Piece (cs : Text) : Option Lexeme → Nat → Prop where
  | blank {n} (h : blankLength? cs = some n) : Piece cs none n
  | string {n} (hblank : blankLength? cs = none) (h : stringLength? cs = some n) :
      Piece cs (some (.string (unquote (cs.take n)))) n
  | range {n} (hblank : blankLength? cs = none) (hstring : stringLength? cs = none)
      (h : rangeLength? cs = some n) :
      Piece cs (some (.range (Text.upper ((cs.take n).filter (!isBlank ·))))) n
  | number {n} (hblank : blankLength? cs = none) (hstring : stringLength? cs = none)
      (hrange : rangeLength? cs = none) (h : numberLength? cs = some n) :
      Piece cs (some (.number (cs.take n))) n
  | name {n} (hblank : blankLength? cs = none) (hstring : stringLength? cs = none)
      (hrange : rangeLength? cs = none) (hnumber : numberLength? cs = none)
      (h : nameLength? cs = some n) : Piece cs (some (nameLexeme (cs.take n) (cs.drop n))) n
  | comparison {op} (hblank : blankLength? cs = none) (hstring : stringLength? cs = none)
      (hrange : rangeLength? cs = none) (hnumber : numberLength? cs = none)
      (hname : nameLength? cs = none) (h : comparator? cs = some op) :
      Piece cs (some (.comparison op)) op.text.length
  | symbol {lexeme} (hblank : blankLength? cs = none) (hstring : stringLength? cs = none)
      (hrange : rangeLength? cs = none) (hnumber : numberLength? cs = none)
      (hname : nameLength? cs = none) (hcomparator : comparator? cs = none)
      (h : symbol? cs = some lexeme) : Piece cs (some lexeme) 1

/-- The lexer takes the piece that is there. So proofs about pieces go
by the rules of `Piece`, one case for each kind, and leave the lexer
closed. -/
theorem piece?_eq_some_iff {cs : Text} {lexeme : Option Lexeme} {n : Nat} :
    piece? cs = some (lexeme, n) ↔ Piece cs lexeme n := by
  constructor
  · intro h
    unfold piece? at h
    cases hblank : blankLength? cs with
    | some n => rw [hblank] at h; cases h; exact .blank hblank
    | none =>
    rw [hblank] at h
    cases hstring : stringLength? cs with
    | some n => rw [hstring] at h; cases h; exact .string hblank hstring
    | none =>
    rw [hstring] at h
    cases hrange : rangeLength? cs with
    | some n => rw [hrange] at h; cases h; exact .range hblank hstring hrange
    | none =>
    rw [hrange] at h
    cases hnumber : numberLength? cs with
    | some n => rw [hnumber] at h; cases h; exact .number hblank hstring hrange hnumber
    | none =>
    rw [hnumber] at h
    cases hname : nameLength? cs with
    | some n => rw [hname] at h; cases h; exact .name hblank hstring hrange hnumber hname
    | none =>
    rw [hname] at h
    cases hop : comparator? cs with
    | some op => rw [hop] at h; cases h; exact .comparison hblank hstring hrange hnumber hname hop
    | none =>
    rw [hop] at h
    obtain ⟨symbol, hsymbol, heq⟩ := Option.map_eq_some_iff.mp h
    cases heq
    exact .symbol hblank hstring hrange hnumber hname hop hsymbol
  · intro h
    unfold piece?
    cases h <;> simp only [*, Option.map_some]

/-- Blanks at the end of a text change the first piece in nothing but,
perhaps, how far past the text it reaches. -/
theorem piece?_append_blanks (hw : ∀ c ∈ w, isBlank c = true) {cs : Text} (hcs : cs ≠ []) :
    (piece? cs = none ∧ piece? (cs ++ w) = none) ∨
      ∃ lexeme m n, piece? cs = some (lexeme, m) ∧ piece? (cs ++ w) = some (lexeme, n)
        ∧ SameEnd cs m n := by
  have hstring := stringLength?_append_blanks hw hcs
  have hname := nameLength?_append_blanks hw hcs
  have hcomparator := comparator?_append_blanks hw hcs
  obtain ⟨c, cs, rfl⟩ := List.exists_cons_of_ne_nil hcs
  have hsymbol : symbol? (c :: cs ++ w) = symbol? (c :: cs) := symbol?_cons c (cs ++ w) cs
  cases hc : isBlank c with
  | true =>
      refine .inr ⟨none, ((c :: cs).takeWhile isBlank).length,
        ((c :: cs ++ w).takeWhile isBlank).length, ?_, ?_, ?_⟩
      · simp only [piece?, blankLength?_of_isBlank hc]
      · simp only [piece?, List.cons_append, blankLength?_of_isBlank hc]
      · by_cases hstop : (c :: cs).dropWhile isBlank = []
        · have hall := List.dropWhile_eq_nil_iff.mp hstop
          rw [List.takeWhile_append_of_pos hall, List.takeWhile_eq_self_iff.mpr hall,
            List.length_append]
          exact .inr ⟨Nat.le_refl _, Nat.le_add_right _ _⟩
        · rw [takeWhile_append_of_stop hstop]
          exact .inl rfl
  | false =>
      -- no blank in front: the kinds are gone through in the order of the lexer
      have hblank : blankLength? (c :: cs ++ w) = none := blankLength?_of_not_isBlank hc (cs ++ w)
      unfold piece?
      simp only [hblank, blankLength?_of_not_isBlank hc, hstring]
      cases hn : stringLength? (c :: cs) with
      | some n =>
          refine .inr ⟨_, _, _, rfl, ?_, .inl rfl⟩
          simp only [List.take_append_of_le_length (stringLength?_le hn)]
      | none =>
          simp only
          rcases rangeLength?_append_blanks hw (c :: cs) with ⟨hrange, hrange'⟩ |
            ⟨m, n, hm, hn, hend⟩
          · simp only [hrange, hrange', numberLength?_append_blanks hw]
            cases hn : numberLength? (c :: cs) with
            | some n =>
                refine .inr ⟨_, _, _, rfl, ?_, .inl rfl⟩
                simp only [List.take_append_of_le_length (numberLength?_le hn)]
            | none =>
                simp only [hname]
                cases hn : nameLength? (c :: cs) with
                | some n =>
                    refine .inr ⟨_, _, _, rfl, ?_, .inl rfl⟩
                    simp only [List.take_append_of_le_length (nameLength?_le hn),
                      List.drop_append_of_le_length (nameLength?_le hn),
                      nameLexeme_append_blanks hw]
                | none =>
                    simp only [hcomparator, hsymbol]
                    cases comparator? (c :: cs) with
                    | some op => exact .inr ⟨_, _, _, rfl, rfl, .inl rfl⟩
                    | none =>
                        cases symbol? (c :: cs) with
                        | some lexeme => exact .inr ⟨_, _, _, rfl, rfl, .inl rfl⟩
                        | none => exact .inl ⟨rfl, rfl⟩
          -- only a range may take in some of the blanks, and they are struck from its text
          · simp only [hm, hn, filter_take_of_sameEnd hw hend]
            exact .inr ⟨_, _, _, rfl, rfl, hend⟩

end Spreadsheet.Lexer
