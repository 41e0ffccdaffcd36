/-
What a formula shows does not depend on the blanks between its tokens.

# Two chances

An expression is read from both texts or from neither. If it is read, it is
one expression, and nothing of the spacing is left in it. If there is none,
the texts are reduced to arithmetic, and blanks leave no trace in that
(`reduced_of_padded`).

# Tokens may change

The tokens of the two texts need not be the same. A blank may end a name
early, so that what was one range in the one text is a range and a name in
the other (`blanks_between_tokens_call`); in such places no expression can
be read from either text. Therefore what is compared are the expressions,
and not the tokens.
-/
import Spreadsheet.Eval.Formula
import Spreadsheet.Proofs.Formula.Spaced
import Spreadsheet.Proofs.Text.Upper

namespace Spreadsheet.Eval

open Lexer (Spaced)
open Text (isBlank Padded)

variable {cs ds e e' : Text}

/-- Reduced to arithmetic, a text has lost its blanks, those put in as
those that were there. -/
theorem reduced_of_padded (h : Padded cs ds) : reduced ds = reduced cs := by
  have hcons : ∀ (c : CodePoint) (cs : Text), reduced (c :: cs)
      = (Text.onPoint Text.upperChar c).filter isArithmetic ++ reduced cs := fun c cs => by
    rw [reduced, Text.upper, List.flatMap_cons, List.filter_append]
    rfl
  induction h with
  | nil => rfl
  | keep c h ih => rw [hcons, hcons, ih]
  | @blank cs ds b hb h ih =>
      have hblank : isArithmetic b = false := by
        cases harithmetic : isArithmetic b with
        | false => rfl
        | true =>
            have hall : ∀ c ∈ Text.ofString "+-*/().", isBlank c = false := by decide
            rcases Bool.or_eq_true_iff.mp harithmetic with hfigure | hsign
            · have halphanumeric : Lexer.isAlphanumeric b = true := by
                rw [Lexer.isAlphanumeric, hfigure, Bool.or_true]
              rw [Lexer.isAlphanumeric_of_isBlank hb] at halphanumeric
              cases halphanumeric
            · rw [hall b (List.contains_iff_mem.mp hsign)] at hb
              cases hb
      rw [hcons, Text.onPoint_upperChar_of_isBlank hb,
        List.filter_cons_of_neg (by simp [hblank]), ih]
      rfl

/-- What is read as one expression, and is reduced to one arithmetic,
shows the same. -/
theorem expressionText_congr (env : Environment)
    (hparse : (Parser.parse ds).toOption = (Parser.parse cs).toOption)
    (hreduced : reduced ds = reduced cs) : expressionText env ds = expressionText env cs := by
  unfold expressionText
  rw [hreduced]
  cases hcs : Parser.parse cs with
  | ok expr =>
      rw [hcs] at hparse
      rw [toOption_eq_some.mp hparse]
  | error fault =>
      rw [hcs] at hparse
      cases hds : Parser.parse ds with
      | error fault' => rfl
      | ok expr => rw [hds] at hparse; cases hparse

/-- Blanks between the tokens of an expression do not matter: with them
and without them one expression is read, or none, and in every
environment the formula shows the same. -/
theorem blanks_between_tokens_irrelevant (h : Spaced e e') :
    (Parser.parse e').toOption = (Parser.parse e).toOption ∧
      ∀ env, evaluateText env (.char '=' :: e') = evaluateText env (.char '=' :: e) := by
  have hparse := Parser.toOption_parse_of_spaced h
  refine ⟨hparse, fun env => congrArg orCode (expressionText_congr env ?_ ?_)⟩
  · rw [Parser.toOption_parse_congr (Lexer.lexemes_trim e'), hparse,
      ← Parser.toOption_parse_congr (Lexer.lexemes_trim e)]
  · rw [← reduced_of_padded (.of_trim e'), reduced_of_padded h.padded,
      reduced_of_padded (.of_trim e)]

/-- `A1: B1(` and `A1: B1 (`: a range and a call in the one, and a
longer range in the other. -/
theorem blanks_between_tokens_call :
    Spaced "A1: B1(" "A1: B1 (" ∧
      Lexer.lexemesOf (Lexer.tokens "A1: B1(")
        = some [.range "A1:", .name "B1", .openParen] ∧
      Lexer.lexemesOf (Lexer.tokens "A1: B1 (") = some [.range "A1:B1", .openParen] ∧
      (Parser.parse "A1: B1 (").toOption = (Parser.parse "A1: B1(").toOption ∧
      ∀ env, evaluateText env "=A1: B1 (" = evaluateText env "=A1: B1(" := by
  have htoken : ∀ (gap gap' token rest rest' : Text) (lexeme : Lexeme), gap.Sublist gap' →
      (∀ c ∈ gap', isBlank c = true) →
      Lexer.piece? (token ++ rest) = some (some lexeme, token.length) → Spaced rest rest' →
      Spaced (gap ++ (token ++ rest)) (gap' ++ (token ++ rest')) := fun _ _ _ _ _ _ => .token
  have hparen := htoken [] " " "(" [] [] .openParen (List.nil_sublist _) (by decide) (by decide)
    (.blanks (List.Sublist.refl _) nofun)
  have hname := htoken " " " " "B1" _ _ (.name "B1") (List.Sublist.refl _) (by decide) (by decide)
    hparen
  have hspaced : Spaced "A1: B1(" "A1: B1 (" :=
    htoken [] [] "A1:" _ _ (.range "A1:") (List.Sublist.refl _) nofun (by decide) hname
  obtain ⟨hparse, hshown⟩ := blanks_between_tokens_irrelevant hspaced
  exact ⟨hspaced, by decide, by decide, hparse, hshown⟩

end Spreadsheet.Eval
