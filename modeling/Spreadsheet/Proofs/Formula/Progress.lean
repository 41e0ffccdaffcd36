/-
The lexer goes forward.

# Bounds

Every piece takes at least one code point and ends within the text
(`piece?_bounds`). A range ends within the text also where it takes in
blanks at its end, as these belong to the text. That a piece takes something
is true for a different reason with every kind: a string has its quotes, a
range its colon, a numeral a digit, and a name its first letter.

# Runs

So the tokens after a piece are those of the text that is left, at places
counted from the end of the piece (`tokensFrom_cons`), and what is said of
all texts is proved by induction on their length. The lexer itself goes
forward one code point at a time, and passes over those that belong to a
piece already taken (`tokensFrom_skip`).
-/
import Spreadsheet.Proofs.Decimal.Longest
import Spreadsheet.Proofs.Formula.Margins

namespace Spreadsheet.Lexer

open Text (isBlank)

-- ====================================================== the length of a piece

/-- Blanks are one code point or more, and end within the text. -/
theorem blankLength?_bounds {cs : Text} {n : Nat} (h : blankLength? cs = some n) :
    0 < n ∧ n ≤ cs.length := by
  unfold blankLength? at h
  split at h
  · cases h
  · next hne =>
    obtain rfl := Option.some.inj h
    exact ⟨List.length_pos_iff.mpr hne, (List.takeWhile_sublist _).length_le⟩

/-- A string holds its quotes. -/
theorem stringLength?_pos {cs : Text} {n : Nat} (h : stringLength? cs = some n) : 0 < n := by
  unfold stringLength? at h
  split at h
  · obtain ⟨m, -, rfl⟩ := Option.map_eq_some_iff.mp h
    exact Nat.succ_pos m
  · split at h
    · obtain rfl := Option.some.inj h
      exact Nat.succ_pos _
    · cases h
  · cases h

/-- A range holds its colon, and ends within the text, as both of its
corners do. -/
theorem rangeLength?_bounds {cs : Text} {n : Nat} (h : rangeLength? cs = some n) :
    0 < n ∧ n ≤ cs.length := by
  have hlength : ∀ (p : CodePoint → Bool) (cs : Text),
      (cs.takeWhile p).length + (cs.dropWhile p).length = cs.length := by
    intro p cs
    rw [← List.length_append, List.takeWhile_append_dropWhile]
  have hleft := hlength isAlphanumeric cs
  have hbefore := hlength isBlank (cs.dropWhile isAlphanumeric)
  unfold rangeLength? at h
  dsimp only at h
  split at h
  · next rest hcolon =>
    have hafter := hlength isBlank rest
    have hright := hlength isAlphanumeric (rest.dropWhile isBlank)
    rw [hcolon, List.length_cons] at hbefore
    split at h
    · split at h
      · split at h
        · cases h
        · obtain rfl := Option.some.inj h
          omega
      · obtain rfl := Option.some.inj h
        omega
    · obtain rfl := Option.some.inj h
      omega
  · cases h

theorem numberLength?_pos {cs : Text} {n : Nat} (h : numberLength? cs = some n) : 0 < n := by
  obtain ⟨⟨numeral, rest⟩, hscan, rfl⟩ := Option.map_eq_some_iff.mp h
  exact List.length_pos_iff.mpr (Decimal.Numeral.text_ne_nil_of_scan hscan)

theorem nameLength?_pos {cs : Text} {n : Nat} (h : nameLength? cs = some n) : 0 < n := by
  unfold nameLength? at h
  split at h
  · split at h
    · obtain rfl := Option.some.inj h
      exact Nat.succ_pos _
    · cases h
  · cases h

/-- A comparison is in front of the text as it is written. -/
theorem text_isPrefix_of_comparator? {cs : Text} {op : Comparator} (h : comparator? cs = some op) :
    Text.ofString op.text <+: cs := by
  unfold comparator? at h
  split at h <;> cases h <;> exact ⟨_, rfl⟩

theorem ne_nil_of_symbol? {cs : Text} {lexeme : Lexeme} (h : symbol? cs = some lexeme) :
    cs ≠ [] := by
  rintro rfl
  cases h

/-- A piece takes something, and no more than there is. This is why the
lexer comes to an end. -/
theorem piece?_bounds {cs : Text} {lexeme : Option Lexeme} {n : Nat}
    (h : piece? cs = some (lexeme, n)) : 0 < n ∧ n ≤ cs.length := by
  cases piece?_eq_some_iff.mp h with
  | blank hblank => exact blankLength?_bounds hblank
  | string _ hstring => exact ⟨stringLength?_pos hstring, stringLength?_le hstring⟩
  | range _ _ hrange => exact rangeLength?_bounds hrange
  | number _ _ _ hnumber => exact ⟨numberLength?_pos hnumber, numberLength?_le hnumber⟩
  | name _ _ _ _ hname => exact ⟨nameLength?_pos hname, nameLength?_le hname⟩
  | @comparison op _ _ _ _ _ hop =>
      have hle := (text_isPrefix_of_comparator? hop).length_le
      rw [Text.ofString, Text.ofChars, List.length_map, String.length_toList] at hle
      refine ⟨?_, hle⟩
      cases op <;> decide
  | symbol _ _ _ _ _ _ hsymbol =>
      exact ⟨Nat.one_pos, List.length_pos_iff.mpr (ne_nil_of_symbol? hsymbol)⟩

-- ====================================================== what is passed over

/-- Code points that are passed over only move the places. So a run can
be taken up again behind a piece. -/
theorem tokensFrom_skip (position skip : Nat) (cs : Text) :
    tokensFrom position skip cs = tokensFrom (position + skip) 0 (cs.drop skip) := by
  induction cs generalizing position skip with
  | nil =>
      rw [List.drop_nil]
      cases skip <;> rfl
  | cons c cs ih =>
      cases skip with
      | zero => rfl
      | succ skip =>
          calc tokensFrom position (skip + 1) (c :: cs)
              = tokensFrom (position + 1) skip cs := rfl
            _ = tokensFrom (position + 1 + skip) 0 (cs.drop skip) := ih (position + 1) skip
            _ = tokensFrom (position + (skip + 1)) 0 ((c :: cs).drop (skip + 1)) := by
              rw [Nat.add_assoc, Nat.add_comm 1, List.drop_succ_cons]

/-- The first piece, and the tokens of what it leaves. This is the
recursion by pieces, which the lexer takes one code point at a time. -/
theorem tokensFrom_cons (position : Nat) (c : CodePoint) (cs : Text) :
    tokensFrom position 0 (c :: cs)
      = match piece? (c :: cs) with
        | none => .error (.unexpectedCharacter c position)
        | some (lexeme, n) => do
          let rest ← tokensFrom (position + n) 0 ((c :: cs).drop n)
          return (lexeme.map fun lexeme => ⟨lexeme, position⟩).toList ++ rest := by
  have hnext : ∀ {lexeme n}, piece? (c :: cs) = some (lexeme, n) →
      tokensFrom (position + 1) (n - 1) cs = tokensFrom (position + n) 0 ((c :: cs).drop n) := by
    intro lexeme n hpiece
    obtain ⟨m, rfl⟩ := Nat.exists_eq_succ_of_ne_zero (Nat.ne_of_gt (piece?_bounds hpiece).1)
    rw [tokensFrom_skip, Nat.succ_sub_one, List.drop_succ_cons, Nat.add_assoc, Nat.add_comm 1]
  rw [tokensFrom]
  cases hpiece : piece? (c :: cs) with
  | none => rfl
  | some found =>
      obtain ⟨_ | lexeme, n⟩ := found
      · dsimp only
        rw [hnext hpiece]
        cases tokensFrom (position + n) 0 ((c :: cs).drop n) <;> rfl
      · dsimp only
        rw [hnext hpiece]
        rfl

/-- The lexeme of the first piece, and the lexemes of what the piece
leaves. -/
theorem lexemesOf_tokens_cons (c : CodePoint) (cs : Text) :
    lexemesOf (tokens (c :: cs))
      = match piece? (c :: cs) with
        | none => none
        | some (lexeme, n) =>
          (lexemesOf (tokens ((c :: cs).drop n))).map (lexeme.toList ++ ·) := by
  unfold tokens
  rw [tokensFrom_cons]
  cases piece? (c :: cs) with
  | none => rfl
  | some found =>
      obtain ⟨lexeme, n⟩ := found
      dsimp only
      rw [lexemesOf_tokensFrom_position 0 (0 + n)]
      cases tokensFrom (0 + n) 0 ((c :: cs).drop n) with
      | error fault => rfl
      | ok rest => cases lexeme <;> rfl

end Spreadsheet.Lexer
