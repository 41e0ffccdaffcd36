/-
The spellings of a reference.

# Names and keys

A text that is read as one reference is a name of letters and figures,
perhaps between blanks, and its key is the name in upper case
(`exists_spelling`). So one key has many spellings, but every spelling has
one key (`Spells`).

# In a formula

In front of a closing parenthesis the text is that reference again
(`lexemesOf_reference`), and two such texts around a colon are a range with
their keys at its corners (`lexemesOf_pair`). Both are read piece by piece:
the blanks in front, the name, which is no other kind of piece because it
starts with a letter, and the blanks behind it. A range needs none of these
to be missing, for it may have blanks on both sides of its colon, and what
follows it here is a parenthesis.
-/
import Spreadsheet.Proofs.Formula.Margins
import Spreadsheet.Proofs.Reference.Notation

namespace Spreadsheet.Lexer

open Text (isBlank dropBlanks isDigit takeWhile_append_dropBlanks takeWhile_blanks_cons
  takeWhile_isBlank_cons)

-- ====================================================== letters in front

/-- A letter is one of the basic alphabet. -/
theorem code_of_isLetter {c : CodePoint} (hc : isLetter c = true) :
    65 ≤ c.code ∧ c.code ≤ 90 ∨ 97 ≤ c.code ∧ c.code ≤ 122 := by
  simp only [isLetter, CodePoint.within, Bool.or_eq_true, Bool.and_eq_true,
    decide_eq_true_eq] at hc
  exact hc

theorem code_of_isAlphanumeric {c : CodePoint} (hc : isAlphanumeric c = true) :
    48 ≤ c.code ∧ c.code ≤ 122 := by
  rcases Bool.or_eq_true_iff.mp hc with hletter | hfigure
  · have hcode := code_of_isLetter hletter
    omega
  · have hcode := Reference.isFigure_iff.mp hfigure
    omega

theorem isDigit_of_isLetter {c : CodePoint} (hc : isLetter c = true) : isDigit c = false := by
  have hcode := code_of_isLetter hc
  rw [isDigit, Text.digitValue?, Option.isSome_map, Option.isSome_eq_false_iff,
    Option.isNone_iff_eq_none, List.find?_eq_none]
  intro z hz hdigit
  simp only [Bool.and_eq_true, decide_eq_true_eq] at hdigit
  have hzeros : z = 48 ∨ 1632 ≤ z := by
    have hall : ∀ z ∈ Text.digitZeros, z = 48 ∨ 1632 ≤ z := by decide
    exact hall z hz
  omega

theorem isBlank_of_isAlphanumeric {c : CodePoint} (hc : isAlphanumeric c = true) :
    isBlank c = false := by
  cases hblank : isBlank c with
  | false => rfl
  | true =>
      rw [isAlphanumeric_of_isBlank hblank] at hc
      cases hc

/-- No number starts with a letter, so a name is not taken for one. -/
theorem numberLength?_of_isLetter {c : CodePoint} (hc : isLetter c = true) (cs : Text) :
    numberLength? (c :: cs) = none := by
  have hdigit := isDigit_of_isLetter hc
  have hpoint : c ≠ .char '.' := by
    rintro rfl
    cases hc
  unfold numberLength? Decimal.Numeral.scan Decimal.Numeral.scanMantissa
  simp [hdigit, hpoint]

theorem isAlphanumeric_of_isLetter {c : CodePoint} (hc : isLetter c = true) :
    isAlphanumeric c = true := by
  rw [isAlphanumeric, hc, Bool.true_or]

theorem stringLength?_of_isAlphanumeric {c : CodePoint} (hc : isAlphanumeric c = true)
    (cs : Text) : stringLength? (c :: cs) = none := by
  refine stringLength?_cons ?_ ?_ cs
  · rintro rfl
    cases hc
  · rintro rfl
    cases hc

-- ====================================================== blanks in between

variable {w : Text}

theorem lexemesOf_blanks_close (hw : ∀ c ∈ w, isBlank c = true) :
    lexemesOf (tokens (w ++ [.char ')'])) = some [.closeParen] :=
  lexemesOf_blanks_append hw [.char ')']

-- ====================================================== spellings

/-- A name that is a reference, and the key it is read as. -/
structure Spells (name key : Text) : Prop where
  starts : ∃ c cs, name = c :: cs ∧ isLetter c = true
  alphanumeric : ∀ c ∈ name, isAlphanumeric c = true
  upper : Text.upper name = key
  reference : (Reference.split? key).isSome = true

variable {name key before after : Text}

theorem Spells.ne_nil (h : Spells name key) : name ≠ [] := by
  obtain ⟨c, cs, rfl, -⟩ := h.starts
  exact List.cons_ne_nil _ _

/-- A name is neither blank nor a string nor a number. -/
theorem Spells.pieces_none (h : Spells name key) (rest : Text) :
    blankLength? (name ++ rest) = none ∧ stringLength? (name ++ rest) = none ∧
      numberLength? (name ++ rest) = none := by
  obtain ⟨c, cs, rfl, hc⟩ := h.starts
  have halphanumeric := isAlphanumeric_of_isLetter hc
  exact ⟨blankLength?_of_not_isBlank (isBlank_of_isAlphanumeric halphanumeric) _,
    stringLength?_of_isAlphanumeric halphanumeric _, numberLength?_of_isLetter hc _⟩

/-- In front of what stands in no name, the name is taken whole, because
every character of it may stand inside one. -/
theorem Spells.nameLength? (h : Spells name key) {rest : Text}
    (hrest : rest.takeWhile inName = []) : nameLength? (name ++ rest) = some name.length := by
  obtain ⟨c, cs, rfl, hc⟩ := h.starts
  have hcs : ∀ d ∈ cs, inName d = true := by
    intro d hd
    unfold inName
    rw [h.alphanumeric d (List.mem_cons_of_mem _ hd)]
    rfl
  have hstart : startsName c = true := by
    unfold startsName
    rw [hc]
    rfl
  rw [List.cons_append, Lexer.nameLength?, if_pos hstart, List.takeWhile_append_of_pos hcs, hrest,
    List.append_nil]
  rfl

/-- In upper case a letter is a capital one, and a figure is a
figure. -/
theorem upper_alphanumeric {cs : Text} (h : ∀ c ∈ cs, isAlphanumeric c = true) :
    ∀ c ∈ Text.upper cs, Reference.isLetter c = true ∨ Reference.isFigure c = true := by
  intro d hd
  obtain ⟨c, hc, hd⟩ := List.mem_flatMap.mp hd
  have hcode := code_of_isAlphanumeric (h c hc)
  cases c with
  | surrogate n =>
      have hsurrogate : 0xD800 ≤ (CodePoint.surrogate n).code := Nat.le_add_right _ _
      omega
  | char c =>
      have hbasic : c.toNat < 128 := Nat.lt_of_le_of_lt hcode.2 (by decide)
      have hupper := Text.toNat_toUpper hbasic
      rw [Text.onPoint, Text.upperChar, if_pos hbasic] at hd
      obtain rfl := List.mem_singleton.mp hd
      rw [Reference.isLetter_iff, Reference.isFigure_iff]
      show 65 ≤ c.toUpper.toNat ∧ c.toUpper.toNat ≤ 90 ∨ 48 ≤ c.toUpper.toNat ∧ c.toUpper.toNat ≤ 57
      rw [hupper]
      rcases Bool.or_eq_true_iff.mp (h _ hc) with hletter | hfigure
      · have hletter : 65 ≤ c.toNat ∧ c.toNat ≤ 90 ∨ 97 ≤ c.toNat ∧ c.toNat ≤ 122 :=
          code_of_isLetter hletter
        split <;> omega
      · have hfigure : 48 ≤ c.toNat ∧ c.toNat ≤ 57 := Reference.isFigure_iff.mp hfigure
        split <;> omega

/-- A reference that a name spells ends with its row. A line feed, which
may end a reference, stands in no name. -/
theorem Spells.parts (h : Spells name key) {letters figures : Text}
    (hkey : Reference.split? key = some (letters, figures)) : key = letters ++ figures := by
  obtain ⟨-, -, -, -, hkey⟩ := Reference.split?_eq_some hkey
  refine hkey.resolve_right fun hfeed => ?_
  have hmem : .char '\n' ∈ Text.upper name := by
    rw [h.upper, hfeed]
    exact List.mem_append_right _ (List.mem_singleton_self _)
  exact absurd (upper_alphanumeric h.alphanumeric _ hmem) (by decide)

/-- The key is made of letters and figures too, so it may stand for
itself at the corner of a range. -/
theorem Spells.alphanumeric_key (h : Spells name key) : ∀ c ∈ key, isAlphanumeric c = true := by
  obtain ⟨⟨letters, figures⟩, hkey⟩ := Option.isSome_iff_exists.mp h.reference
  obtain ⟨-, -, hletters, hfigures, -⟩ := Reference.split?_eq_some hkey
  rw [h.parts hkey]
  intro c hc
  unfold isAlphanumeric
  rcases List.mem_append.mp hc with hc | hc
  · have hletter : c.within 'A' 'Z' = true := hletters c hc
    rw [isLetter, hletter]
    rfl
  · rw [hfigures c hc, Bool.or_true]

/-- In front of a parenthesis that closes, with blanks or without, a
reference is read. -/
theorem piece?_reference (h : Spells name key) (hafter : ∀ c ∈ after, isBlank c = true)
    (rest : Text) :
    piece? (name ++ (after ++ .char ')' :: rest)) = some (some (.reference key), name.length) := by
  have hblanks := (takeWhile_isBlank_cons hafter (d := .char ')') (by decide) rest).2
  have hrange : rangeLength? (name ++ (after ++ .char ')' :: rest)) = none := by
    unfold rangeLength?
    simp only [List.dropWhile_append_of_pos h.alphanumeric, hblanks,
      (takeWhile_blanks_cons (fun _ => isAlphanumeric_of_isBlank) hafter (d := .char ')') rfl
        rest).2]
    rfl
  have hname := h.nameLength?
    (takeWhile_blanks_cons (fun _ => inName_of_isBlank) hafter (d := .char ')') rfl rest).1
  have hlexeme : nameLexeme name (after ++ .char ')' :: rest) = .reference key := by
    unfold nameLexeme
    simp only [h.upper, h.reference, dropBlanks, hblanks]
    rfl
  obtain ⟨hblank, hstring, hnumber⟩ := h.pieces_none (after ++ .char ')' :: rest)
  unfold piece?
  simp only [hblank, hstring, hrange, hnumber, hname, List.take_left', List.drop_left', hlexeme]

/-- A spelling of a reference, with blanks or without, in front of a
parenthesis that closes. -/
theorem lexemesOf_reference (h : Spells name key) (hbefore : ∀ c ∈ before, isBlank c = true)
    (hafter : ∀ c ∈ after, isBlank c = true) :
    lexemesOf (tokens (before ++ (name ++ after) ++ [.char ')']))
      = some [.reference key, .closeParen] := by
  rw [List.append_assoc, List.append_assoc, lexemesOf_blanks_append hbefore,
    lexemesOf_append h.ne_nil (piece?_reference h hafter []), lexemesOf_blanks_close hafter]
  rfl

-- ====================================================== two spellings around a colon

/-- A name, a colon and another name, with blanks or without around the
colon. -/
def pair (name after before' name' : Text) : Text :=
  name ++ (after ++ .char ':' :: (before' ++ name'))

variable {name' key' before' after' : Text}

/-- Two names around a colon are the range in front of what follows
them. -/
theorem rangeLength?_pair (h : Spells name key) (h' : Spells name' key')
    (hafter : ∀ c ∈ after, isBlank c = true) (hbefore' : ∀ c ∈ before', isBlank c = true)
    (hafter' : ∀ c ∈ after', isBlank c = true) (rest : Text) :
    rangeLength? (pair name after before' name' ++ (after' ++ .char ')' :: rest))
      = some (pair name after before' name').length := by
  have hend := takeWhile_blanks_cons (fun _ => isAlphanumeric_of_isBlank) hafter'
    (d := .char ')') rfl rest
  have hcolon : ∀ rest : Text, (after ++ .char ':' :: rest).takeWhile isAlphanumeric = [] ∧
      (after ++ .char ':' :: rest).dropWhile isAlphanumeric = after ++ .char ':' :: rest :=
    takeWhile_blanks_cons (fun _ => isAlphanumeric_of_isBlank) hafter rfl
  have hblanks : ∀ rest : Text, (after ++ .char ':' :: rest).takeWhile isBlank = after ∧
      (after ++ .char ':' :: rest).dropWhile isBlank = .char ':' :: rest :=
    takeWhile_isBlank_cons hafter (by decide)
  have hname : ∀ rest : Text, (before' ++ (name' ++ rest)).takeWhile isBlank = before' ∧
      (before' ++ (name' ++ rest)).dropWhile isBlank = name' ++ rest := by
    obtain ⟨c, cs, rfl, -⟩ := h'.starts
    exact fun rest => takeWhile_isBlank_cons hbefore'
      (isBlank_of_isAlphanumeric (h'.alphanumeric c (List.mem_cons_self ..))) (cs ++ rest)
  have hlength : (pair name after before' name').length
      = name.length + after.length + 1 + before'.length + name'.length := by
    simp only [pair, List.length_append, List.length_cons]
    omega
  rw [hlength]
  unfold rangeLength? pair
  simp only [List.append_assoc, List.cons_append, List.takeWhile_append_of_pos h.alphanumeric,
    List.dropWhile_append_of_pos h.alphanumeric, List.takeWhile_append_of_pos h'.alphanumeric,
    List.dropWhile_append_of_pos h'.alphanumeric, (hcolon _).1, (hcolon _).2, (hblanks _).1,
    (hblanks _).2, (hname _).1, (hname _).2, hend.1, hend.2, List.append_nil]
  -- what follows the second name is a blank or the parenthesis
  cases hends : after' with
  | nil => rfl
  | cons c after' =>
      simp only [List.cons_append]
      have hc : isBlank c = true := hafter' c (hends ▸ List.mem_cons_self ..)
      rw [rangeEnd_blank hc]
      rfl

/-- Without their blanks and in upper case, two names around a colon
have their keys there. -/
theorem upper_filter_pair (h : Spells name key) (h' : Spells name' key')
    (hafter : ∀ c ∈ after, isBlank c = true) (hbefore' : ∀ c ∈ before', isBlank c = true) :
    Text.upper ((pair name after before' name').filter (!isBlank ·))
      = key ++ .char ':' :: key' := by
  have hsolid : ∀ {name key : Text}, Spells name key → ∀ c ∈ name, (!isBlank c) = true := by
    intro name key h c hc
    rw [isBlank_of_isAlphanumeric (h.alphanumeric c hc)]
    rfl
  have hcolon : (!isBlank (.char ':')) = true := by decide
  unfold pair
  rw [List.filter_append, List.filter_append, List.filter_cons_of_pos (p := (!isBlank ·)) hcolon,
    List.filter_append, filter_blanks hafter, filter_blanks hbefore',
    List.filter_eq_self.mpr (hsolid h), List.filter_eq_self.mpr (hsolid h'), List.nil_append,
    List.nil_append]
  unfold Text.upper
  rw [List.flatMap_append, List.flatMap_cons]
  exact congrArg₂ (· ++ .char ':' :: ·) h.upper h'.upper

/-- Two names around a colon are a range with their keys at its
corners. -/
theorem piece?_pair (h : Spells name key) (h' : Spells name' key')
    (hafter : ∀ c ∈ after, isBlank c = true) (hbefore' : ∀ c ∈ before', isBlank c = true)
    (hafter' : ∀ c ∈ after', isBlank c = true) (rest : Text) :
    piece? (pair name after before' name' ++ (after' ++ .char ')' :: rest))
      = some (some (.range (key ++ .char ':' :: key')), (pair name after before' name').length) := by
  have hfirst : blankLength? (pair name after before' name' ++ (after' ++ .char ')' :: rest)) = none ∧
      stringLength? (pair name after before' name' ++ (after' ++ .char ')' :: rest)) = none := by
    unfold pair
    rw [List.append_assoc]
    exact ⟨(h.pieces_none _).1, (h.pieces_none _).2.1⟩
  unfold piece?
  simp only [hfirst.1, hfirst.2, rangeLength?_pair h h' hafter hbefore' hafter', List.take_left',
    upper_filter_pair h h' hafter hbefore']

/-- Two spellings of references around a colon, with blanks or without,
in front of a parenthesis that closes. -/
theorem lexemesOf_pair (h : Spells name key) (h' : Spells name' key')
    (hbefore : ∀ c ∈ before, isBlank c = true) (hafter : ∀ c ∈ after, isBlank c = true)
    (hbefore' : ∀ c ∈ before', isBlank c = true) (hafter' : ∀ c ∈ after', isBlank c = true) :
    lexemesOf (tokens (before ++ (name ++ after) ++ .char ':' :: (before' ++ (name' ++ after'))
        ++ [.char ')']))
      = some [.range (key ++ .char ':' :: key'), .closeParen] := by
  have hsplit : before ++ (name ++ after) ++ .char ':' :: (before' ++ (name' ++ after'))
      ++ [.char ')'] = before ++ (pair name after before' name' ++ (after' ++ [.char ')'])) := by
    simp only [pair, List.append_assoc, List.cons_append]
  have hblanks : lexemesOf
        (tokens (before ++ (pair name after before' name' ++ (after' ++ [.char ')']))))
      = lexemesOf (tokens (pair name after before' name' ++ (after' ++ [.char ')']))) := by
    unfold pair
    rw [List.append_assoc, lexemesOf_blanks_append hbefore]
  have hne : pair name after before' name' ≠ [] := List.append_ne_nil_of_left_ne_nil h.ne_nil _
  rw [hsplit, hblanks, lexemesOf_append hne (piece?_pair h h' hafter hbefore' hafter' []),
    lexemesOf_blanks_close hafter']
  rfl

/-- A spelling of a reference, a colon and the spelling again, in front
of a parenthesis that closes. -/
theorem lexemesOf_range (h : Spells name key) (hbefore : ∀ c ∈ before, isBlank c = true)
    (hafter : ∀ c ∈ after, isBlank c = true) :
    lexemesOf (tokens (before ++ (name ++ after) ++ .char ':' :: (before ++ (name ++ after))
        ++ [.char ')']))
      = some [.range (key ++ .char ':' :: key), .closeParen] :=
  lexemesOf_pair h h hbefore hafter hbefore hafter

-- ====================================================== what spells a reference

/-- A piece without a token is the blanks in front, all of them and one
at least. -/
theorem takeWhile_of_piece? {cs : Text} {n : Nat} (h : piece? cs = some (none, n)) :
    (cs.takeWhile isBlank).length = n ∧ 0 < n := by
  cases piece?_eq_some_iff.mp h with
  | blank hblank =>
      unfold blankLength? at hblank
      split at hblank
      · cases hblank
      · next run hrun =>
        obtain rfl := Option.some.inj hblank
        exact ⟨rfl, List.length_pos_iff.mpr hrun⟩

/-- Where no token is left, there is nothing left but blanks. The
induction is on the text, and pieces that were begun are skipped. -/
theorem isBlank_of_lexemesOf_nil {position skip : Nat} {cs : Text}
    (h : lexemesOf (tokensFrom position skip cs) = some []) :
    ∀ c ∈ cs.drop skip, isBlank c = true := by
  induction cs generalizing position skip with
  | nil => simp
  | cons c cs ih =>
      cases skip with
      | succ skip => exact ih h
      | zero =>
          rw [lexemesOf_tokensFrom_cons] at h
          split at h
          · cases h
          · next n hpiece =>
            obtain ⟨hlength, hpos⟩ := takeWhile_of_piece? hpiece
            have hrest : (c :: cs).dropWhile isBlank = cs.drop (n - 1) := by
              have hdrop : (c :: cs).drop n = (c :: cs).dropWhile isBlank := by
                conv => lhs; rw [← List.takeWhile_append_dropWhile (p := isBlank) (l := c :: cs)]
                exact List.drop_left' hlength
              rw [← hdrop, List.drop_cons hpos]
            intro d hd
            rw [List.drop_zero, ← List.takeWhile_append_dropWhile (p := isBlank) (l := c :: cs),
              hrest] at hd
            rcases List.mem_append.mp hd with hd | hd
            · exact List.mem_takeWhile_imp hd
            · exact ih h d hd
          · obtain ⟨rest, -, hrest⟩ := Option.map_eq_some_iff.mp h
            cases hrest

/-- What stands in a reference is a letter, a figure, or a line feed. -/
theorem mem_reference (h : (Reference.split? key).isSome = true) {c : CodePoint} (hc : c ∈ key) :
    Reference.isLetter c = true ∨ Reference.isFigure c = true ∨ c = .char '\n' := by
  obtain ⟨⟨letters, figures⟩, hsplit⟩ := Option.isSome_iff_exists.mp h
  obtain ⟨-, -, hletters, hfigures, hkey⟩ := Reference.split?_eq_some hsplit
  have hmem : c ∈ letters ++ figures ++ ("\n" : Text) := by
    rcases hkey with rfl | rfl
    · exact List.mem_append_left _ hc
    · exact hc
  rcases List.mem_append.mp hmem with hmem | hmem
  · exact (List.mem_append.mp hmem).elim (fun h => .inl (hletters c h))
      fun h => .inr (.inl (hfigures c h))
  · exact .inr (.inr (List.mem_singleton.mp hmem))

/-- A name that is a reference in upper case has neither a point nor a
low line. -/
theorem notMem_of_reference {name : Text} (h : (Reference.split? (Text.upper name)).isSome = true) :
    .char '_' ∉ name ∧ .char '.' ∉ name := by
  have hkept : ∀ c : Char, Text.upperChar c = [c] → .char c ∈ name →
      .char c ∈ Text.upper name := by
    intro c hupper hmem
    refine List.mem_flatMap.mpr ⟨_, hmem, ?_⟩
    rw [Text.onPoint, hupper]
    exact List.mem_singleton_self _
  constructor
  · intro hmem
    exact absurd (mem_reference h (hkept '_' (by decide) hmem)) (by decide)
  · intro hmem
    exact absurd (mem_reference h (hkept '.' (by decide) hmem)) (by decide)

/-- A name that is read as a reference spells it: it is letters and
figures, and in upper case it is the reference. -/
theorem spells_of_nameLexeme {c : CodePoint} {cs rest : Text} {n : Nat}
    (hname : nameLength? (c :: cs) = some n)
    (h : nameLexeme ((c :: cs).take n) rest = .reference key) :
    Spells ((c :: cs).take n) key ∧ 0 < n := by
  unfold nameLexeme at h
  dsimp only at h
  split at h
  · next hread =>
    obtain rfl := Lexeme.reference.inj h
    have hreference := (Bool.and_eq_true _ _ ▸ hread).1
    unfold nameLength? at hname
    dsimp only at hname
    split at hname
    · next hstart =>
      obtain rfl := Option.some.inj hname
      rw [List.take_succ_cons, ← List.prefix_iff_eq_take.mp (List.takeWhile_prefix _)]
        at hreference ⊢
      obtain ⟨hline, hpoint⟩ := notMem_of_reference hreference
      have hnot : ∀ d ∈ c :: cs.takeWhile inName, d ≠ .char '_' ∧ d ≠ .char '.' := fun d hd =>
        ⟨fun heq => hline (heq ▸ hd), fun heq => hpoint (heq ▸ hd)⟩
      have hletter : isLetter c = true := by
        simpa [startsName, (hnot c (List.mem_cons_self ..)).1] using hstart
      refine ⟨⟨⟨c, _, rfl, hletter⟩, fun d hd => ?_, rfl, hreference⟩, Nat.succ_pos _⟩
      rcases List.mem_cons.mp hd with rfl | hmem
      · simp [isAlphanumeric, hletter]
      · have hmem := List.mem_takeWhile_imp hmem
        simpa [inName, hnot d hd] using hmem
    · cases hname
  · cases h

/-- A token that is a reference is a name. All other kinds of pieces
have lexemes of their own. -/
theorem name_of_piece? {cs : Text} {n : Nat}
    (h : piece? cs = some (some (.reference key), n)) :
    nameLength? cs = some n ∧ nameLexeme (cs.take n) (cs.drop n) = .reference key := by
  have hpiece := piece?_eq_some_iff.mp h
  generalize hlexeme : some (Lexeme.reference key) = lexeme at hpiece
  cases hpiece with
  | blank _ => cases hlexeme
  | string _ _ => cases hlexeme
  | range _ _ _ => cases hlexeme
  | number _ _ _ _ => cases hlexeme
  | name _ _ _ _ hname => exact ⟨hname, (Option.some.inj hlexeme).symm⟩
  | comparison _ _ _ _ _ _ => cases hlexeme
  | symbol _ _ _ _ _ _ hsymbol =>
      obtain rfl := Option.some.inj hlexeme
      unfold symbol? at hsymbol
      split at hsymbol <;> cases hsymbol

/-- So it spells the reference. -/
theorem spells_of_piece? {c : CodePoint} {cs : Text} {n : Nat}
    (h : piece? (c :: cs) = some (some (.reference key), n)) :
    Spells ((c :: cs).take n) key ∧ 0 < n := by
  obtain ⟨hname, hlexeme⟩ := name_of_piece? h
  exact spells_of_nameLexeme hname hlexeme

/-- A text that is read as one reference spells it, perhaps between
blanks. -/
theorem exists_spelling {text : Text} (h : lexemesOf (tokens text) = some [.reference key]) :
    ∃ before name after, text = before ++ (name ++ after) ∧ Spells name key ∧
      (∀ c ∈ before, isBlank c = true) ∧ ∀ c ∈ after, isBlank c = true := by
  have hsplit := takeWhile_append_dropBlanks text
  rw [← lexemesOf_dropBlanks] at h
  cases hrest : dropBlanks text with
  | nil =>
      rw [hrest] at h
      cases h
  | cons c cs =>
      rw [hrest] at h hsplit
      unfold tokens at h
      rw [lexemesOf_tokensFrom_cons] at h
      have hc : isBlank c = false := by
        have hdrop : text.dropWhile isBlank = c :: cs := hrest
        have hhead := List.head_dropWhile_not isBlank (hdrop ▸ List.cons_ne_nil c cs)
        simpa only [hdrop, List.head_cons] using hhead
      split at h
      · cases h
      · next n hpiece =>
        obtain ⟨hlength, hpos⟩ := takeWhile_of_piece? hpiece
        rw [List.takeWhile_cons, if_neg (by simp [hc])] at hlength
        exact absurd hlength (Nat.ne_of_lt hpos)
      · next lexeme n hpiece =>
        obtain ⟨rest, hnone, hcons⟩ := Option.map_eq_some_iff.mp h
        obtain ⟨rfl, rfl⟩ := List.cons.inj hcons
        obtain ⟨hspells, hpos⟩ := spells_of_piece? hpiece
        refine ⟨text.takeWhile isBlank, (c :: cs).take n, (c :: cs).drop n, ?_, hspells,
          fun d => List.mem_takeWhile_imp, ?_⟩
        · rw [List.take_append_drop, hsplit]
        · rw [List.drop_cons hpos]
          exact isBlank_of_lexemesOf_nil hnone

end Spreadsheet.Lexer
