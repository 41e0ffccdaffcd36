/-
Blanks around an expression do not matter to its tokens.

# Why it matters

A formula is evaluated after its text was trimmed, while the cells it reads
are found in the text as it stands. The two agree because the lexer gives
the same lexemes for both, or fails on both: `lexemes_trim`. Only the places
of the tokens move, and a fault may name another place.

# In front and at the end

Blanks in front are one piece without a token. Blanks at the end are taken
off piece by piece, by induction on the text: no piece but a range reaches
into them, and a range that does is the same token. Along the way the lexer
passes over what belongs to a piece already taken, so the statement has to
speak about a run that starts with such a skip
(`lexemesOf_tokensFrom_skip`), and about one that skips past the end of the
text (`lexemesOf_tokensFrom_past`).
-/
import Spreadsheet.Proofs.Formula.Piece

namespace Spreadsheet.Lexer

open Text (isBlank dropBlanks takeWhile_append_dropBlanks)

variable {w : Text}

-- ====================================================== lexemes

/-- The lexemes of a run of the lexer, without their places; none if it
fails. -/
def lexemesOf (run : Except SyntaxFault (List Token)) : Option (List Lexeme) :=
  run.toOption.map (·.map Token.lexeme)

theorem exists_tokens_of_lexemesOf {run : Except SyntaxFault (List Token)} {lexemes : List Lexeme}
    (h : lexemesOf run = some lexemes) :
    ∃ tokens, run = .ok tokens ∧ tokens.map Token.lexeme = lexemes := by
  cases run with
  | error fault => cases h
  | ok tokens => exact ⟨tokens, rfl, Option.some.inj h⟩

/-- The first piece decides how the lexemes go on: it is a fault, or
blanks that leave no lexeme, or one lexeme in front of the others. -/
theorem lexemesOf_tokensFrom_cons (position : Nat) (c : CodePoint) (cs : Text) :
    lexemesOf (tokensFrom position 0 (c :: cs))
      = match piece? (c :: cs) with
        | none => none
        | some (none, n) => lexemesOf (tokensFrom (position + 1) (n - 1) cs)
        | some (some lexeme, n) =>
            (lexemesOf (tokensFrom (position + 1) (n - 1) cs)).map (lexeme :: ·) := by
  rw [tokensFrom]
  generalize piece? (c :: cs) = piece
  rcases piece with _ | ⟨_ | lexeme, n⟩
  · rfl
  · rfl
  · show lexemesOf (tokensFrom (position + 1) (n - 1) cs >>= _)
        = (lexemesOf (tokensFrom (position + 1) (n - 1) cs)).map (lexeme :: ·)
    cases tokensFrom (position + 1) (n - 1) cs with
    | error fault => rfl
    | ok rest => rfl

/-- The lexemes of a run do not depend on the place at which it
starts. -/
theorem lexemesOf_tokensFrom_position (p q skip : Nat) (cs : Text) :
    lexemesOf (tokensFrom p skip cs) = lexemesOf (tokensFrom q skip cs) := by
  induction cs generalizing p q skip with
  | nil => rfl
  | cons c cs ih =>
      cases skip with
      | succ skip => exact ih (p + 1) (q + 1) skip
      | zero =>
          rw [lexemesOf_tokensFrom_cons, lexemesOf_tokensFrom_cons]
          split
          · rfl
          · exact ih (p + 1) (q + 1) _
          · rw [ih (p + 1) (q + 1)]

/-- What is passed over leaves the lexemes of the rest, for lexemes do
not know their places. -/
theorem lexemesOf_tokensFrom_skip (position : Nat) (cs ds : Text) :
    lexemesOf (tokensFrom position cs.length (cs ++ ds))
      = lexemesOf (tokensFrom position 0 ds) := by
  induction cs generalizing position with
  | nil => rfl
  | cons c cs ih =>
      calc lexemesOf (tokensFrom position (cs.length + 1) (c :: cs ++ ds))
          = lexemesOf (tokensFrom (position + 1) cs.length (cs ++ ds)) := rfl
        _ = lexemesOf (tokensFrom (position + 1) 0 ds) := ih (position + 1)
        _ = lexemesOf (tokensFrom position 0 ds) := lexemesOf_tokensFrom_position _ _ _ _

/-- A token in front of a text is followed by the tokens of the text, if
the piece that is found is this token and no more. -/
theorem lexemesOf_append {cs rest : Text} {lexeme : Lexeme} (hcs : cs ≠ [])
    (h : piece? (cs ++ rest) = some (some lexeme, cs.length)) :
    lexemesOf (tokens (cs ++ rest)) = (lexemesOf (tokens rest)).map (lexeme :: ·) := by
  obtain ⟨c, cs, rfl⟩ := List.exists_cons_of_ne_nil hcs
  unfold tokens
  rw [List.cons_append] at h ⊢
  rw [lexemesOf_tokensFrom_cons, h]
  simp only [List.length_cons, Nat.add_sub_cancel]
  rw [lexemesOf_tokensFrom_skip, lexemesOf_tokensFrom_position]

/-- Blanks are no tokens, whether some of them are passed over or
not. -/
theorem lexemesOf_tokensFrom_blanks (hw : ∀ c ∈ w, isBlank c = true) (position skip : Nat) :
    lexemesOf (tokensFrom position skip w) = some [] := by
  induction w generalizing position skip with
  | nil => cases skip <;> rfl
  | cons c w ih =>
      have ih := ih fun d hd => hw d (List.mem_cons_of_mem _ hd)
      cases skip with
      | succ skip => exact ih (position + 1) skip
      | zero =>
          rw [lexemesOf_tokensFrom_cons, piece?]
          simp only [blankLength?_of_isBlank (hw c (List.mem_cons_self ..))]
          exact ih (position + 1) _

/-- Past the end of a text, blanks after it are no tokens either. -/
theorem lexemesOf_tokensFrom_past (hw : ∀ c ∈ w, isBlank c = true) {cs : Text} {skip : Nat}
    (h : cs.length ≤ skip) (position : Nat) :
    lexemesOf (tokensFrom position skip (cs ++ w)) = some [] := by
  induction cs generalizing position skip with
  | nil => exact lexemesOf_tokensFrom_blanks hw position skip
  | cons c cs ih =>
      cases skip with
      | zero => cases h
      | succ skip => exact ih (Nat.le_of_succ_le_succ h) (position + 1)

/-- Blanks at the end of a text change no lexeme, and no fault into a
success. -/
theorem lexemesOf_append_blanks (hw : ∀ c ∈ w, isBlank c = true) (position skip : Nat)
    (cs : Text) :
    lexemesOf (tokensFrom position skip (cs ++ w)) = lexemesOf (tokensFrom position skip cs) := by
  induction cs generalizing position skip with
  | nil =>
      rw [List.nil_append, lexemesOf_tokensFrom_blanks hw]
      cases skip <;> rfl
  | cons c cs ih =>
      cases skip with
      | succ skip => exact ih (position + 1) skip
      | zero =>
          -- the piece at `c` is the same, and so is the rest, or there is none left
          have hnext : ∀ m n, SameEnd (c :: cs) m n →
              lexemesOf (tokensFrom (position + 1) (n - 1) (cs ++ w))
                = lexemesOf (tokensFrom (position + 1) (m - 1) cs) := by
            rintro m n (rfl | ⟨hm, hn⟩)
            · exact ih (position + 1) _
            · rw [List.length_cons] at hm hn
              have hnone := lexemesOf_tokensFrom_past (w := []) (by simp)
                (show cs.length ≤ m - 1 by omega) (position + 1)
              rw [List.append_nil] at hnone
              rw [hnone, lexemesOf_tokensFrom_past hw (by omega)]
          rw [List.cons_append, lexemesOf_tokensFrom_cons, lexemesOf_tokensFrom_cons,
            ← List.cons_append]
          rcases piece?_append_blanks hw (List.cons_ne_nil c cs) with ⟨hnone, hnone'⟩ |
            ⟨lexeme, m, n, hm, hn, hend⟩
          · rw [hnone, hnone']
          · rw [hm, hn]
            cases lexeme with
            | none => exact hnext m n hend
            | some lexeme =>
                simp only
                rw [hnext m n hend]

/-- Blanks in front of a text change no lexeme. By induction on the
text: a piece of blanks leaves none. -/
theorem lexemesOf_dropBlanks (cs : Text) :
    lexemesOf (tokens (dropBlanks cs)) = lexemesOf (tokens cs) := by
  cases cs with
  | nil => rfl
  | cons c cs =>
      cases hc : isBlank c with
      | false => rw [dropBlanks, List.dropWhile_cons, if_neg (by simp [hc])]
      | true =>
          have hsplit : (c :: cs).takeWhile isBlank = c :: cs.takeWhile isBlank := by
            rw [List.takeWhile_cons, if_pos hc]
          have hdrop : dropBlanks (c :: cs) = dropBlanks cs := by
            rw [dropBlanks, List.dropWhile_cons, if_pos hc]
            rfl
          have hskip := lexemesOf_tokensFrom_skip 1 (cs.takeWhile isBlank) (dropBlanks cs)
          rw [takeWhile_append_dropBlanks] at hskip
          unfold tokens
          rw [lexemesOf_tokensFrom_cons, piece?]
          simp only [blankLength?_of_isBlank hc]
          rw [hsplit, List.length_cons, Nat.add_sub_cancel, hskip, hdrop]
          exact lexemesOf_tokensFrom_position _ _ _ _

/-- Blanks in front of a text are no tokens. -/
theorem lexemesOf_blanks_append (hw : ∀ c ∈ w, isBlank c = true) (cs : Text) :
    lexemesOf (tokens (w ++ cs)) = lexemesOf (tokens cs) := by
  rw [← lexemesOf_dropBlanks (w ++ cs), dropBlanks, List.dropWhile_append_of_pos hw]
  exact lexemesOf_dropBlanks cs

/-- A trimmed text has the lexemes of the text. -/
theorem lexemes_trim (cs : Text) : lexemesOf (tokens (Text.trim cs)) = lexemesOf (tokens cs) := by
  obtain ⟨after, hafter, hsplit⟩ := Text.exists_trim_append cs
  calc lexemesOf (tokens (Text.trim cs))
      = lexemesOf (tokens (Text.trim cs ++ after)) := (lexemesOf_append_blanks hafter 0 0 _).symm
    _ = lexemesOf (tokens (dropBlanks cs)) := by rw [← hsplit]
    _ = lexemesOf (tokens cs) := lexemesOf_dropBlanks cs

end Spreadsheet.Lexer
