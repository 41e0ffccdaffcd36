/-
Blanks between the tokens of an expression.

# Spacing

`Spaced e e'` says that `e` splits into tokens and that `e'` is `e` with
blanks put in before, between and after them. Blanks that were there stay,
so tokens that need a blank between them keep it. No blank is put into a
token, though one may be read as belonging to a range.

# What can change

Mostly this changes no token. What can change is where a range ends that
left out the blank in front of a name or a call (`piece?_append`). Then the
range runs into an operand in both texts, and neither is an expression
(`lexemesOf_of_spaced`). The induction is on the spacing, from the last
token to the first, so that what follows a token is known to split already.

# What this closes

One and the same expression is read from both texts, or none from either
(`toOption_parse_of_spaced`).
-/
import Spreadsheet.Proofs.Formula.Adjacent
import Spreadsheet.Proofs.Formula.Completeness
import Spreadsheet.Proofs.Formula.Padding

namespace Spreadsheet

namespace Lexer

open Text (isBlank dropBlanks exists_blanks Padded)
open Grammar (Jammed)

-- ====================================================== statement vocabulary

/-- The first text splits into tokens, and the second is the first with
blanks put in before the first token, after the last and between any
two. -/
inductive Spaced : Text → Text → Prop where
  | blanks {gap gap' : Text} (hgap : gap.Sublist gap') (hblank : ∀ c ∈ gap', isBlank c = true) :
      Spaced gap gap'
  | token {gap gap' token rest rest' : Text} {lexeme : Lexeme} (hgap : gap.Sublist gap')
      (hblank : ∀ c ∈ gap', isBlank c = true)
      (hpiece : piece? (token ++ rest) = some (some lexeme, token.length))
      (hrest : Spaced rest rest') : Spaced (gap ++ (token ++ rest)) (gap' ++ (token ++ rest'))

variable {e e' cs rest rest' : Text}

/-- Blanks between tokens are blanks put in. -/
theorem Spaced.padded (h : Spaced e e') : Padded e e' := by
  induction h with
  | blanks hgap hblank =>
      have hpadded := Padded.nil.blanks_append hgap hblank
      rwa [List.append_nil, List.append_nil] at hpadded
  | token hgap hblank _ _ ih => exact (ih.append _).blanks_append hgap hblank

/-- A token in front of a text, which takes in some blanks at most.
These are blanks that would be skipped anyway. -/
theorem lexemesOf_append_add {token : Text} {lexeme : Lexeme} {k : Nat}
    (h : piece? (token ++ rest) = some (some lexeme, token.length + k))
    (hne : token ≠ []) (hblank : ∀ c ∈ rest.take k, isBlank c = true) :
    lexemesOf (tokens (token ++ rest)) = (lexemesOf (tokens rest)).map (lexeme :: ·) := by
  obtain ⟨c, name, rfl⟩ := List.exists_cons_of_ne_nil hne
  rw [List.cons_append] at h ⊢
  rw [lexemesOf_tokens_cons, h]
  dsimp only
  rw [← List.cons_append, List.drop_length_add_append, ← lexemesOf_blanks_append hblank,
    List.take_append_drop]
  rfl

/-- A text that is spaced out splits into tokens, by induction on
them. -/
theorem Spaced.lexemesOf_ne_none (h : Spaced e e') : lexemesOf (tokens e) ≠ none := by
  induction h with
  | blanks hgap hblank =>
      rw [tokens, lexemesOf_tokensFrom_blanks fun c hc => hblank c (hgap.subset hc)]
      exact nofun
  | token hgap hblank hpiece _ ih =>
      rw [lexemesOf_blanks_append fun c hc => hblank c (hgap.subset hc),
        lexemesOf_append (List.ne_nil_of_length_pos (piece?_bounds hpiece).1) hpiece]
      simpa using ih

/-- A text is spaced as it is exactly when it splits into tokens. So the
condition on two texts asks of one text no more than that. -/
theorem spaced_self_iff : Spaced cs cs ↔ lexemesOf (tokens cs) ≠ none := by
  refine ⟨Spaced.lexemesOf_ne_none, fun h => ?_⟩
  induction hlength : cs.length using Nat.strongRecOn generalizing cs with
  | ind length ih =>
    subst hlength
    obtain ⟨gap, hgap, hsplit, -⟩ := exists_blanks cs
    cases hrest : dropBlanks cs with
    | nil =>
        rw [hrest, List.append_nil] at hsplit
        subst hsplit
        exact .blanks (List.Sublist.refl _) hgap
    | cons c rest =>
        rw [hrest] at hsplit
        rw [hsplit, lexemesOf_blanks_append hgap, lexemesOf_tokens_cons] at h
        split at h
        · exact absurd rfl h
        · next lexeme n hpiece =>
          have hbounds := piece?_bounds hpiece
          cases lexeme with
          | none =>
              have hblank := (takeWhile_of_piece? hpiece).1
              have hc := Text.eq_false_of_dropWhile hrest
              rw [List.takeWhile_cons_of_neg (by simp [hc])] at hblank
              rw [← hblank] at hbounds
              exact absurd hbounds.1 (Nat.lt_irrefl 0)
          | some lexeme =>
              have htake : ((c :: rest).take n).length = n := by
                rw [List.length_take]
                omega
              have hspaced := ih ((c :: rest).drop n).length (by
                rw [hsplit, List.length_append, List.length_drop]
                omega) (by simpa using h) rfl
              have htoken := Spaced.token (List.Sublist.refl gap) hgap
                (by rw [List.take_append_drop, hpiece, htake]) hspaced
              rwa [List.take_append_drop, ← hsplit] at htoken

-- ====================================================== operands

/-- Where an operand opens, a token with which an operand starts is
found, or none. -/
theorem startsOperand_of_piece? {c : CodePoint} (hc : opensOperand c = true)
    {lexeme : Option Lexeme} {n : Nat} (h : piece? (c :: cs) = some (lexeme, n)) :
    ∃ next, lexeme = some next ∧ next.startsOperand = true := by
  cases piece?_eq_some_iff.mp h with
  | blank hblank =>
      rw [blankLength?_of_not_isBlank (isBlank_of_opensOperand hc)] at hblank
      cases hblank
  | string | range | number => exact ⟨_, rfl, rfl⟩
  | name =>
      refine ⟨_, rfl, ?_⟩
      unfold nameLexeme
      dsimp only
      split <;> rfl
  | comparison _ _ _ _ _ hop =>
      unfold comparator? at hop
      split at hop
      case h_9 => cases hop
      all_goals next heq => cases heq; cases hc
  | symbol _ _ _ _ _ _ hsymbol =>
      refine ⟨_, rfl, ?_⟩
      unfold symbol? at hsymbol
      split at hsymbol
      case h_8 => cases hsymbol
      all_goals next heq => cases hsymbol; cases heq; first | rfl | cases hc

/-- Where an operand comes next, the first lexeme is one with which an
operand starts. -/
theorem exists_cons_of_operandNext (h : OperandNext cs) {ls : List Lexeme}
    (hls : lexemesOf (tokens cs) = some ls) :
    ∃ next others, ls = next :: others ∧ next.startsOperand = true := by
  obtain ⟨c, hc, hopens⟩ := h
  obtain ⟨rest, hrest⟩ := List.head?_eq_some_iff.mp hc
  rw [← lexemesOf_dropBlanks, hrest, lexemesOf_tokens_cons] at hls
  split at hls
  · cases hls
  · next lexeme n hpiece =>
    obtain ⟨next, rfl, hnext⟩ := startsOperand_of_piece? hopens hpiece
    obtain ⟨others, -, rfl⟩ := Option.map_eq_some_iff.mp hls
    exact ⟨next, others, rfl, hnext⟩

-- ====================================================== lexemes

/-- With a range that an operand comes next to, a text is jammed: two
lexemes stand together there that no expression has together. -/
theorem jammed_of_operandNext {cs : Text} {text : Text} {n : Nat}
    (h : piece? cs = some (some (.range text), n)) (hnext : OperandNext (cs.drop n))
    {ls : List Lexeme} (hls : lexemesOf (tokens cs) = some ls) : Jammed ls := by
  cases cs with
  | nil => cases h
  | cons c cs =>
      rw [lexemesOf_tokens_cons, h] at hls
      obtain ⟨tail, htail, rfl⟩ := Option.map_eq_some_iff.mp hls
      obtain ⟨next, others, rfl, hstarts⟩ := exists_cons_of_operandNext hnext htail
      exact ⟨[], text, next, others, rfl, hstarts⟩

/-- Blanks between tokens change no lexeme, or else both texts are
jammed if they split into tokens at all. -/
theorem lexemesOf_of_spaced (h : Spaced e e') :
    lexemesOf (tokens e') = lexemesOf (tokens e) ∨
      (∀ ls, lexemesOf (tokens e) = some ls → Jammed ls) ∧
        ∀ ls, lexemesOf (tokens e') = some ls → Jammed ls := by
  induction h with
  | blanks hgap hblank =>
      left
      rw [tokens, tokens, lexemesOf_tokensFrom_blanks hblank,
        lexemesOf_tokensFrom_blanks fun c hc => hblank c (hgap.subset hc)]
  | @token gap gap' token rest rest' lexeme hgap hblank hpiece hrest ih =>
      have hne : token ≠ [] := List.ne_nil_of_length_pos (piece?_bounds hpiece).1
      rw [lexemesOf_blanks_append hblank,
        lexemesOf_blanks_append fun c hc => hblank c (hgap.subset hc)]
      rcases piece?_append hpiece hrest.lexemesOf_ne_none hrest.padded with
        ⟨k, hpiece', hblanks⟩ | ⟨⟨text, rfl⟩, hnext, text', n, hpiece', hnext'⟩
      · rw [lexemesOf_append hne hpiece, lexemesOf_append_add hpiece' hne hblanks]
        refine ih.imp (fun hsame => by rw [hsame]) fun ⟨hjam, hjam'⟩ => ⟨?_, ?_⟩
        · intro ls hls
          obtain ⟨tail, htail, rfl⟩ := Option.map_eq_some_iff.mp hls
          exact (hjam tail htail).cons lexeme
        · intro ls hls
          obtain ⟨tail, htail, rfl⟩ := Option.map_eq_some_iff.mp hls
          exact (hjam' tail htail).cons lexeme
      · refine .inr ⟨fun ls => jammed_of_operandNext hpiece ?_,
          fun ls => jammed_of_operandNext hpiece' hnext'⟩
        rwa [List.drop_left' rfl]

end Lexer

-- ====================================================== expressions

namespace Parser

open Lexer (lexemesOf tokens Spaced lexemesOf_of_spaced)
open Grammar (Derives Jammed not_derives_of_jammed)

variable {cs ds : Text}

theorem toOption_parse_congr (h : lexemesOf (tokens ds) = lexemesOf (tokens cs)) :
    (parse ds).toOption = (parse cs).toOption :=
  Option.ext fun e => by rw [toOption_parse_eq_some, toOption_parse_eq_some, h]

/-- A jammed text is no expression. -/
theorem toOption_parse_of_jammed (h : ∀ ls, lexemesOf (tokens cs) = some ls → Jammed ls) :
    (parse cs).toOption = none := by
  refine Option.eq_none_iff_forall_ne_some.mpr fun e he => ?_
  obtain ⟨ls, hls, hderives⟩ := toOption_parse_eq_some.mp he
  exact not_derives_of_jammed (h ls hls) hderives

/-- Blanks between tokens do not change the expression, or that there is
none. -/
theorem toOption_parse_of_spaced (h : Spaced cs ds) :
    (parse ds).toOption = (parse cs).toOption := by
  rcases lexemesOf_of_spaced h with hsame | ⟨hjam, hjam'⟩
  · exact toOption_parse_congr hsame
  · rw [toOption_parse_of_jammed hjam, toOption_parse_of_jammed hjam']

end Parser

end Spreadsheet
