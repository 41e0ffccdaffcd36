/-
The tokens of an expression cover it.

# One run of the lexer

A run of the lexer passes pieces from the start of the text on. It ends
where no pattern matches (`StopsAt`), or at the end of the text, and then
the texts of the tokens lie side by side in it with nothing but blanks in
between (`Tiles`, `Covers`). So one run is `tokensFrom_cases`, by induction
on the length of the text. A position that pieces reach is one where the
lexer looks for a piece (`Reaches`), so the position of a fault is the first
of these where it finds none.

# What is said of all tokens

What is said of all tokens is read off `Tiles` piece by piece: each has the
text from which it was read, in its place and not empty; they do not
overlap; and a character in none of them is a blank. A piece may be longer
than its lexeme, as blanks inside a range belong to it.

# Shapes

A reference is capital letters and figures, and no parenthesis opens after
it, for then it would be called (`shape_of_reference`). A range is two runs
of such characters around a colon, of which either may be empty
(`shape_of_range`).
-/
import Mathlib
import Spreadsheet.Proofs.Formula.Pattern
import Spreadsheet.Proofs.Formula.Spelling

namespace Spreadsheet.Lexer

open Text (isBlank dropBlanks)

-- ====================================================== where a run comes past

/-- Pieces that follow each other from the start of the text on end at
the position. -/
inductive Reaches : Text → Nat → Prop
  | here (cs : Text) : Reaches cs 0
  | past {cs : Text} {lexeme : Option Lexeme} {n k : Nat} (hpiece : piece? cs = some (lexeme, n))
      (h : Reaches (cs.drop n) k) : Reaches cs (n + k)

/-- The character is at the first position, of those that pieces reach,
where no pattern matches. -/
structure StopsAt (cs : Text) (c : CodePoint) (position : Nat) : Prop where
  reached : Reaches cs position
  character : cs[position]? = some c
  unmatched : ∀ token rest, cs.drop position = token ++ rest → ¬Pattern token rest
  first : ∀ k < position, Reaches cs k → ∃ token rest, cs.drop k = token ++ rest ∧
    Pattern token rest

variable {cs : Text} {n : Nat}

/-- A run that stops after a piece has not stopped before. This is the
step by which the place of a fault is found. -/
theorem StopsAt.past {lexeme : Option Lexeme} {c : CodePoint} {k : Nat}
    (hpiece : piece? cs = some (lexeme, n)) (h : StopsAt (cs.drop n) c k) :
    StopsAt cs c (n + k) where
  reached := .past hpiece h.reached
  character := by rw [← h.character, List.getElem?_drop]
  unmatched := by
    intro token rest hsplit
    apply h.unmatched token rest
    rw [List.drop_drop, hsplit]
  first := by
    intro i hi hreaches
    cases hreaches with
    | here =>
        exact ⟨cs.take n, cs.drop n, (List.take_append_drop n cs).symm, pattern_of_piece? hpiece⟩
    | @past _ lexeme' m j hpiece' hreaches =>
        obtain ⟨-, rfl⟩ := Prod.mk.inj (Option.some.inj (hpiece.symm.trans hpiece'))
        obtain ⟨token, rest, hsplit, hpattern⟩ := h.first j (by omega) hreaches
        exact ⟨token, rest, by rw [← hsplit, List.drop_drop], hpattern⟩

-- ====================================================== how tokens lie in a text

/-- A token and the text that it was read from. -/
structure Span where
  token : Token
  text : Text

/-- The position right after a span. -/
def Span.stop (s : Span) : Nat :=
  s.token.start + s.text.length

/-- The spans are the tokens of a text that starts at the position,
piece by piece. -/
inductive Tiles : Nat → Text → List Span → Prop
  | done (position : Nat) : Tiles position [] []
  | blanks {position : Nat} {cs : Text} {n : Nat} {spans : List Span}
      (hpiece : piece? cs = some (none, n)) (h : Tiles (position + n) (cs.drop n) spans) :
      Tiles position cs spans
  | token {position : Nat} {cs : Text} {lexeme : Lexeme} {n : Nat} {spans : List Span}
      (hpiece : piece? cs = some (some lexeme, n))
      (h : Tiles (position + n) (cs.drop n) spans) :
      Tiles position cs (⟨⟨lexeme, position⟩, cs.take n⟩ :: spans)

/-- A run of the lexer ends where no pattern matches, or it has passed
the whole text. -/
theorem tokensFrom_cases (position : Nat) (cs : Text) :
    (∃ c k, tokensFrom position 0 cs = .error (.unexpectedCharacter c (position + k)) ∧
        StopsAt cs c k) ∨
      ∃ spans, tokensFrom position 0 cs = .ok (spans.map Span.token) ∧ Tiles position cs spans := by
  -- by induction on the length, because a piece leaves a shorter text
  induction hlength : cs.length using Nat.strong_induction_on generalizing position cs with
  | _ length ih =>
  cases cs with
  | nil => exact .inr ⟨[], rfl, .done position⟩
  | cons c cs =>
      rw [tokensFrom_cons]
      cases hpiece : piece? (c :: cs) with
      | none =>
          refine .inl ⟨c, 0, rfl, .here _, rfl, ?_, nofun⟩
          rw [List.drop_zero]
          exact piece?_eq_none_iff.mp hpiece
      | some found =>
          obtain ⟨lexeme, n⟩ := found
          obtain ⟨hpos, hle⟩ := piece?_bounds hpiece
          have hshorter : ((c :: cs).drop n).length < length := by
            rw [List.length_drop, ← hlength]
            omega
          rcases ih _ hshorter (position + n) ((c :: cs).drop n) rfl with
            ⟨d, k, hfault, hstops⟩ | ⟨spans, htokens, htiles⟩
          · refine .inl ⟨d, n + k, ?_, hstops.past hpiece⟩
            dsimp only
            rw [hfault, Nat.add_assoc]
            rfl
          · right
            dsimp only
            rw [htokens]
            cases lexeme with
            | none => exact ⟨spans, rfl, .blanks hpiece htiles⟩
            | some lexeme => exact ⟨_ :: spans, rfl, .token hpiece htiles⟩

variable {position : Nat} {spans : List Span}

/-- A token is the piece at the position where it starts, and pieces
reach it. -/
theorem Tiles.exists_piece (h : Tiles position cs spans) {s : Span} (hs : s ∈ spans) :
    ∃ k, s.token.start = position + k ∧ Reaches cs k ∧ s.text <+: cs.drop k ∧
      piece? (cs.drop k) = some (some s.token.lexeme, s.text.length) := by
  have hlater : ∀ {position n : Nat} {cs : Text} {lexeme : Option Lexeme},
      piece? cs = some (lexeme, n) →
      (∃ k, s.token.start = position + n + k ∧ Reaches (cs.drop n) k ∧
        s.text <+: (cs.drop n).drop k ∧
        piece? ((cs.drop n).drop k) = some (some s.token.lexeme, s.text.length)) →
      ∃ k, s.token.start = position + k ∧ Reaches cs k ∧ s.text <+: cs.drop k ∧
        piece? (cs.drop k) = some (some s.token.lexeme, s.text.length) := by
    intro position n cs lexeme hpiece hfound
    obtain ⟨k, hstart, hreaches, htext, hlexeme⟩ := hfound
    rw [List.drop_drop] at htext hlexeme
    exact ⟨n + k, by omega, .past hpiece hreaches, htext, hlexeme⟩
  induction h with
  | done position => cases hs
  | blanks hpiece htiles ih => exact hlater hpiece (ih hs)
  | @token position cs lexeme n spans hpiece htiles ih =>
      rcases List.mem_cons.mp hs with rfl | hmem
      · refine ⟨0, rfl, .here cs, List.take_prefix n cs, ?_⟩
        rw [List.drop_zero, hpiece, List.length_take, Nat.min_eq_left (piece?_bounds hpiece).2]
      · exact hlater hpiece (ih hmem)

/-- A token ends before the next one starts, because each piece starts
where the one before it ends. -/
theorem Tiles.pairwise (h : Tiles position cs spans) :
    spans.Pairwise fun s t => s.stop ≤ t.token.start := by
  induction h with
  | done position => exact .nil
  | blanks hpiece htiles ih => exact ih
  | @token position cs lexeme n spans hpiece htiles ih =>
      refine .cons ?_ ih
      intro t ht
      obtain ⟨k, hstart, -⟩ := htiles.exists_piece ht
      have hle := List.length_take_le n cs
      show position + (cs.take n).length ≤ t.token.start
      omega

/-- A character that belongs to no token is a blank. The induction is on
the pieces, and the place is counted from each of them. -/
theorem Tiles.covers (h : Tiles position cs spans) {i : Nat} {c : CodePoint}
    (hc : cs[i]? = some c) :
    isBlank c = true ∨ ∃ s ∈ spans, s.token.start ≤ position + i ∧ position + i < s.stop := by
  induction h generalizing i with
  | done position => cases hc
  | @blanks position cs n spans hpiece htiles ih =>
      by_cases hi : i < n
      · left
        obtain ⟨hlength, -⟩ := takeWhile_of_piece? hpiece
        have hrun : (cs.takeWhile isBlank)[i]? = some c := by
          rw [List.prefix_iff_eq_take.mp (List.takeWhile_prefix isBlank), hlength,
            List.getElem?_take_of_lt hi, hc]
        exact List.mem_takeWhile_imp (List.mem_of_getElem? hrun)
      · have hrest : (cs.drop n)[i - n]? = some c := by
          rw [List.getElem?_drop, Nat.add_sub_cancel' (Nat.le_of_not_lt hi), hc]
        rw [show position + i = position + n + (i - n) by omega]
        exact ih hrest
  | @token position cs lexeme n spans hpiece htiles ih =>
      by_cases hi : i < n
      · refine .inr ⟨_, List.mem_cons_self .., Nat.le_add_right _ _, ?_⟩
        show position + i < position + (cs.take n).length
        rw [List.length_take, Nat.min_eq_left (piece?_bounds hpiece).2]
        omega
      · have hrest : (cs.drop n)[i - n]? = some c := by
          rw [List.getElem?_drop, Nat.add_sub_cancel' (Nat.le_of_not_lt hi), hc]
        rw [show position + i = position + n + (i - n) by omega]
        apply (ih hrest).imp_right
        intro hfound
        obtain ⟨s, hs, hinside⟩ := hfound
        exact ⟨s, List.mem_cons_of_mem _ hs, hinside⟩

/-- The spans lie in the text one after the other, each of them the
piece at its place, and what is in none of them is blank. -/
structure Covers (cs : Text) (spans : List Span) : Prop where
  read : ∀ s ∈ spans, Reaches cs s.token.start ∧
    piece? (cs.drop s.token.start) = some (some s.token.lexeme, s.text.length)
  inPlace : ∀ s ∈ spans, s.text <+: cs.drop s.token.start
  nonempty : ∀ s ∈ spans, s.text ≠ []
  increasing : spans.Pairwise fun s t => s.token.start < t.token.start
  disjoint : spans.Pairwise fun s t => s.stop ≤ t.token.start
  whole : ∀ i c, cs[i]? = some c →
    isBlank c = true ∨ ∃ s ∈ spans, s.token.start ≤ i ∧ i < s.stop

/-- What lies piece by piece from the start of a text covers it, and in
order. -/
theorem Tiles.toCovers (h : Tiles 0 cs spans) : Covers cs spans := by
  have hpiece : ∀ s ∈ spans, Reaches cs s.token.start ∧ s.text <+: cs.drop s.token.start ∧
      piece? (cs.drop s.token.start) = some (some s.token.lexeme, s.text.length) := by
    intro s hs
    obtain ⟨k, hstart, hfound⟩ := h.exists_piece hs
    rw [Nat.zero_add] at hstart
    rwa [hstart]
  have hpos : ∀ s ∈ spans, 0 < s.text.length :=
    fun s hs => (piece?_bounds (hpiece s hs).2.2).1
  refine ⟨fun s hs => ⟨(hpiece s hs).1, (hpiece s hs).2.2⟩, fun s hs => (hpiece s hs).2.1,
    fun s hs => List.length_pos_iff.mp (hpos s hs), ?_, h.pairwise, ?_⟩
  · apply h.pairwise.imp_of_mem
    intro s t hs ht hstop
    have hlength := hpos s hs
    unfold Span.stop at hstop
    omega
  · intro i c hc
    have hcover := h.covers hc
    rwa [Nat.zero_add] at hcover

-- ====================================================== the shape of references and ranges

/-- Capital letters, and figures after them. -/
def LettersThenFigures (key : Text) : Prop :=
  ∃ letters figures, key = letters ++ figures ∧ letters ≠ [] ∧ figures ≠ [] ∧
    (∀ c ∈ letters, Reference.isLetter c = true) ∧ ∀ c ∈ figures, Reference.isFigure c = true

/-- A colon, and otherwise capital letters and figures only. -/
def AroundColon (value : Text) : Prop :=
  ∃ first second, value = first ++ .char ':' :: second ∧
    ∀ c ∈ first ++ second, Reference.isLetter c = true ∨ Reference.isFigure c = true

/-- A reference is letters and figures, and no parenthesis opens after
it. -/
theorem shape_of_reference {key : Text} (h : piece? cs = some (some (.reference key), n)) :
    LettersThenFigures key ∧ (dropBlanks (cs.drop n)).head? ≠ some (.char '(') := by
  obtain ⟨hname, hread⟩ := name_of_piece? h
  constructor
  · cases cs with
    | nil => cases hname
    | cons c cs =>
        obtain ⟨hspells, -⟩ := spells_of_nameLexeme hname hread
        obtain ⟨⟨letters, figures⟩, hsplit⟩ := Option.isSome_iff_exists.mp hspells.reference
        obtain ⟨hletters, hfigures, hall, hall', -⟩ := Reference.split?_eq_some hsplit
        exact ⟨letters, figures, hspells.parts hsplit, hletters, hfigures, hall, hall'⟩
  · intro hcalled
    unfold nameLexeme at hread
    dsimp only at hread
    rw [hcalled, decide_eq_true rfl, Bool.not_true, Bool.and_false,
      if_neg Bool.false_ne_true] at hread
    cases hread

/-- A range is two runs of letters and figures around a colon. The
blanks that stood next to the colon are struck. -/
theorem shape_of_range {value : Text} (h : piece? cs = some (some (.range value), n)) :
    AroundColon value := by
  have hpiece := piece?_eq_some_iff.mp h
  generalize hlexeme : some (Lexeme.range value) = lexeme at hpiece
  cases hpiece with
  | blank _ => cases hlexeme
  | string _ _ => cases hlexeme
  | number _ _ _ _ => cases hlexeme
  | comparison _ _ _ _ _ _ => cases hlexeme
  | name _ _ _ _ _ =>
      unfold nameLexeme at hlexeme
      dsimp only at hlexeme
      split at hlexeme <;> cases hlexeme
  | symbol _ _ _ _ _ _ hsymbol =>
      obtain rfl := Option.some.inj hlexeme
      unfold symbol? at hsymbol
      split at hsymbol <;> cases hsymbol
  | range _ _ hrange =>
      -- the other kinds make no range; of a range the blanks are struck and the letters raised
      obtain rfl := Lexeme.range.inj (Option.some.inj hlexeme)
      obtain ⟨left, before, after, right, rest, rfl, rfl, hleft, hbefore, hafter, hright, -⟩ :=
        parts_of_rangeLength? hrange
      have hsolid : ∀ {run : Text}, (∀ c ∈ run, isAlphanumeric c = true) →
          run.filter (!isBlank ·) = run := by
        intro run hrun
        apply List.filter_eq_self.mpr
        intro c hc
        rw [isBlank_of_isAlphanumeric (hrun c hc)]
        rfl
      have hcolon : (!isBlank (.char ':')) = true := by decide
      refine ⟨Text.upper left, Text.upper right, ?_, ?_⟩
      · rw [List.take_left' rfl, List.filter_append, List.filter_append,
          List.filter_cons_of_pos (p := (!isBlank ·)) hcolon, List.filter_append, hsolid hleft,
          hsolid hright, filter_blanks hbefore, filter_blanks hafter]
        unfold Text.upper
        rw [List.nil_append, List.nil_append, List.flatMap_append, List.flatMap_cons]
        rfl
      · intro c hc
        rcases List.mem_append.mp hc with hc | hc
        · exact upper_alphanumeric hleft c hc
        · exact upper_alphanumeric hright c hc

/-- A run of the lexer ends at the first position that pieces reach
where no pattern matches. Or it gives tokens whose texts cover the
expression one after the other, up to blanks; and then a reference is
capital letters and figures that no parenthesis follows, and a range is
two runs of those around a colon. -/
theorem tokens_cover (expression : Text) :
    (∃ c position, tokens expression = .error (.unexpectedCharacter c position) ∧
        StopsAt expression c position) ∨
      ∃ spans, tokens expression = .ok (spans.map Span.token) ∧ Covers expression spans ∧
        ∀ s ∈ spans,
          (∀ key, s.token.lexeme = .reference key → LettersThenFigures key ∧
            (dropBlanks (expression.drop s.stop)).head? ≠ some (.char '(')) ∧
          ∀ value, s.token.lexeme = .range value → AroundColon value := by
  unfold tokens
  rcases tokensFrom_cases 0 expression with ⟨c, k, hfault, hstops⟩ | ⟨spans, htokens, htiles⟩
  · rw [Nat.zero_add] at hfault
    exact .inl ⟨c, k, hfault, hstops⟩
  · have hcovers := htiles.toCovers
    refine .inr ⟨spans, htokens, hcovers, ?_⟩
    intro s hs
    obtain ⟨-, hpiece⟩ := hcovers.read s hs
    constructor
    · intro key hkey
      rw [hkey] at hpiece
      have hshape := shape_of_reference hpiece
      rwa [List.drop_drop] at hshape
    · intro value hvalue
      rw [hvalue] at hpiece
      exact shape_of_range hpiece

/-- A range with blanks and in small letters, a reference at the end,
and a character that no token starts with. -/
theorem tokens_cover_range_and_fault :
    (∃ spans, Covers "sum( a1 :b2)+x1 " spans ∧
      spans.map Span.token = [⟨.name "SUM", 0⟩, ⟨.openParen, 3⟩, ⟨.range "A1:B2", 5⟩,
        ⟨.closeParen, 11⟩, ⟨.operator .add, 12⟩, ⟨.reference "X1", 13⟩] ∧
      LettersThenFigures "X1" ∧ AroundColon "A1:B2") ∧
      StopsAt "a1 @ 2" '@' 3 := by
  have htokens : tokens "sum( a1 :b2)+x1 " = .ok [⟨.name "SUM", 0⟩, ⟨.openParen, 3⟩,
      ⟨.range "A1:B2", 5⟩, ⟨.closeParen, 11⟩, ⟨.operator .add, 12⟩, ⟨.reference "X1", 13⟩] := by
    cbv
  have hfault : tokens "a1 @ 2" = .error (.unexpectedCharacter '@' 3) := by
    cbv
  constructor
  · rcases tokens_cover "sum( a1 :b2)+x1 " with ⟨c, position, herror, -⟩ |
      ⟨spans, hspans, hcovers, hshapes⟩
    · rw [htokens] at herror
      cases herror
    · have hmap := Except.ok.inj (hspans.symm.trans htokens)
      have hmem : ∀ t ∈ spans.map Span.token, ∃ s ∈ spans, s.token = t :=
        fun t ht => List.mem_map.mp ht
      rw [hmap] at hmem
      obtain ⟨s, hs, hreference⟩ := hmem ⟨.reference "X1", 13⟩ (by decide)
      obtain ⟨r, hr, hrange⟩ := hmem ⟨.range "A1:B2", 5⟩ (by decide)
      exact ⟨spans, hcovers, hmap, ((hshapes s hs).1 _ (by rw [hreference])).1,
        (hshapes r hr).2 _ (by rw [hrange])⟩
  · rcases tokens_cover "a1 @ 2" with ⟨c, position, herror, hstops⟩ | ⟨spans, hspans, -⟩
    · rw [hfault] at herror
      cases herror
      exact hstops
    · rw [hfault] at hspans
      cases hspans

end Spreadsheet.Lexer
