/-
Formulas that name no cell.

# What tokens name

The cells a formula reads are those that its tokens name. So it reads none
exactly when it does not split into tokens or none of them names a cell
(`readsOfText_eq_nil_iff`). A text that does not split is not half read: its
first tokens may name cells, and they count for nothing.

# Ranges

A range whose two corners are references has a cell, however the corners
stand to each other; any other text around a colon names none
(`keysOf_eq_nil_iff`). A corner may also be refused for having too many
digits, and then there is no list of keys at all.
-/
import Spreadsheet.Formula.Reads
import Spreadsheet.Proofs.Formula.Margins
import Spreadsheet.Proofs.Outcome

namespace Spreadsheet

-- ====================================================== cells of a range

namespace Range

/-- The integers from one to another are those in between, both ends
included. -/
theorem mem_integers {first last n : Int} : n ∈ integers first last ↔ first ≤ n ∧ n ≤ last := by
  unfold integers
  rw [List.mem_map]
  constructor
  · rintro ⟨k, hk, rfl⟩
    rw [List.mem_range] at hk
    omega
  · rintro ⟨hfirst, hlast⟩
    refine ⟨(n - first).toNat, ?_, by omega⟩
    rw [List.mem_range]
    omega

/-- A place inside the edges is a cell of the range. -/
theorem key_mem_cells {r : Range} {col row : Int} (hrow : row ∈ integers r.top r.bottom)
    (hcol : col ∈ integers r.left r.right) : (Reference.mk col row).key ∈ r.cells :=
  List.mem_flatMap.mpr ⟨row, hrow, List.mem_map.mpr ⟨col, hcol, rfl⟩⟩

/-- A range has a cell, that of its first corner at least. -/
theorem cells_ne_nil (r : Range) : r.cells ≠ [] := by
  have hrow : r.top ∈ integers r.top r.bottom := mem_integers.mpr ⟨Int.le_refl _, r.top_le_bottom⟩
  have hcol : r.left ∈ integers r.left r.right :=
    mem_integers.mpr ⟨Int.le_refl _, r.left_le_right⟩
  exact List.ne_nil_of_mem (key_mem_cells hrow hcol)

end Range

-- ====================================================== tokens that name no cell

/-- A token that is no reference, and no range with references for its
corners. -/
def Lexeme.NamesNoCell : Lexeme → Prop
  | .reference _ => False
  | .range text => Range.parse? text = .ok none
  | _ => True

namespace Formula

/-- A lexeme names no cell exactly if its keys are none: a range that
can be read has one cell at least. -/
theorem keysOf_eq_nil_iff {lexeme : Lexeme} : keysOf lexeme = .ok [] ↔ lexeme.NamesNoCell := by
  cases lexeme with
  | reference key => exact ⟨nofun, nofun⟩
  | range text =>
      show (Range.parse? text >>= fun r => .ok ((r.map Range.cells).getD [])) = .ok [] ↔ _
      rw [bind_eq_ok]
      constructor
      · rintro ⟨_ | r, hr, hcells⟩
        · exact hr
        · exact absurd (Except.ok.inj hcells) r.cells_ne_nil
      · intro hnone
        exact ⟨none, hnone, rfl⟩
  | number | string | name | operator | comparison | openParen | closeParen | comma =>
      exact ⟨fun _ => trivial, fun _ => rfl⟩

/-- An expression that does not split into tokens, or whose tokens name
no cell. -/
def NamesNoCell (expression : Text) : Prop :=
  ∀ tokens, Lexer.tokens expression = .ok tokens → ∀ token ∈ tokens, token.lexeme.NamesNoCell

/-- Lexemes that name no cell make an expression that names none. -/
theorem namesNoCell_of_lexemesOf {expression : Text} {lexemes : List Lexeme}
    (h : Lexer.lexemesOf (Lexer.tokens expression) = some lexemes)
    (hlexemes : ∀ lexeme ∈ lexemes, lexeme.NamesNoCell) : NamesNoCell expression := by
  intro tokens htokens token htoken
  rw [htokens] at h
  obtain rfl := Option.some.inj h
  exact hlexemes _ (List.mem_map_of_mem htoken)

/-- What a formula reads is what its lexemes name, one after another. -/
theorem readsOfText_of_lexemesOf {expression : Text} {lexemes : List Lexeme}
    (h : Lexer.lexemesOf (Lexer.tokens expression) = some lexemes) :
    readsOfText (.char '=' :: expression) = do return (← lexemes.mapM keysOf).flatten := by
  obtain ⟨tokens, htokens, rfl⟩ := Lexer.exists_tokens_of_lexemesOf h
  rw [List.mapM_map]
  simp only [readsOfText, htokens]
  rfl

/-- A formula reads nothing exactly when its expression names no
cell. -/
theorem readsOfText_eq_nil_iff {expression : Text} :
    readsOfText (.char '=' :: expression) = .ok [] ↔ NamesNoCell expression := by
  cases htokens : Lexer.tokens expression with
  | error fault => simp [readsOfText, NamesNoCell, htokens]
  | ok tokens =>
      simp only [readsOfText, NamesNoCell, htokens, Except.ok.injEq, forall_eq',
        ← keysOf_eq_nil_iff]
      rw [bind_eq_ok]
      constructor
      · rintro ⟨lists, hlists, hnil⟩ token htoken
        obtain ⟨keys, hkeys, hkeysOf⟩ := exists_ok_of_mapM hlists htoken
        rw [hkeysOf, List.flatten_eq_nil_iff.mp (Except.ok.inj hnil) keys hkeys]
      · intro hnone
        refine ⟨tokens.map fun _ => [], mapM_eq_ok.mpr ?_, ?_⟩
        · exact List.forall₂_map_right_iff.mpr (List.forall₂_same.mpr hnone)
        · exact congrArg Except.ok (List.flatten_eq_nil_iff.mpr (by simp))

end Formula

end Spreadsheet
