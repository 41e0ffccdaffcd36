/-
No operand stands right after a range.

# Neighbours

Between two operands of an expression there is an operator, a comparison, a
comma or a parenthesis that closes. What is needed of this is a fact about
neighbours: no lexeme with which an operand starts stands right after a
range (`Follows`). It is proved by induction on the derivation, one case for
each rule of the grammar (`isChain_of_derives`); where two parts are joined,
the lexeme between them starts no operand.

# What this closes

A list of lexemes where a range runs into an operand is no expression,
whatever else is in it (`not_derives_of_jammed`). Such lists come about when
blanks are put into a text behind a range, and both texts are then no
expression.
-/
import Mathlib.Data.List.Chain
import Spreadsheet.Formula.Grammar

namespace Spreadsheet

namespace Lexeme

/-- Can an operand start with the lexeme? -/
def startsOperand : Lexeme → Bool
  | .number _ => true
  | .string _ => true
  | .range _ => true
  | .reference _ => true
  | .name _ => true
  | .openParen => true
  | _ => false

/-- One lexeme may stand right after another, as far as ranges go. -/
def Follows (first next : Lexeme) : Prop :=
  ∀ text, first = .range text → next.startsOperand = false

end Lexeme

namespace Grammar

open Lexeme (Follows)

variable {ls rs : List Lexeme} {first : Lexeme}

/-- What is no range may have anything after it. -/
theorem isChain_cons (hfirst : ∀ text, first ≠ .range text) (h : ls.IsChain Follows) :
    (first :: ls).IsChain Follows :=
  List.isChain_cons.mpr ⟨fun _ _ text hrange => absurd hrange (hfirst text), h⟩

/-- What starts no operand may have anything before it, so two chains
can be joined at an operator, a comma or a parenthesis that closes. -/
theorem isChain_append_cons (hstarts : first.startsOperand = false) (hl : ls.IsChain Follows)
    (hr : rs.IsChain Follows) : (ls ++ first :: rs).IsChain Follows := by
  have hfirst : ∀ text, first ≠ .range text := by
    rintro text rfl
    cases hstarts
  refine List.isChain_append.mpr ⟨hl, isChain_cons hfirst hr, fun _ _ next hnext _ _ => ?_⟩
  obtain rfl := Option.some.inj hnext
  exact hstarts

/-- Parts in which ranges are followed well are so with commas between
them. -/
theorem isChain_commas {parts : List (List Lexeme)} (h : ∀ part ∈ parts, part.IsChain Follows) :
    ([Lexeme.comma].intercalate parts).IsChain Follows := by
  induction parts with
  | nil => exact .nil
  | cons part parts ih =>
      obtain ⟨hpart, hparts⟩ := List.forall_mem_cons.mp h
      cases parts with
      | nil => simpa using hpart
      | cons next parts =>
          rw [List.intercalate_cons_cons, List.append_assoc, List.singleton_append]
          exact isChain_append_cons rfl hpart (ih hparts)

/-- In an expression, no operand stands right after a range. The
induction is on the derivation, and its rules put something between any
two operands. -/
theorem isChain_of_derives {rule : Rule} {e : Expr} (h : Derives rule ls e) :
    ls.IsChain Follows := by
  induction h with
  | operand _ ih | firstTerm _ ih | firstFactor _ ih | unsigned _ ih => exact ih
  | comparison _ _ _ ihl ihr | nextTerm _ _ _ ihl ihr | nextFactor _ _ _ ihl ihr =>
      exact isChain_append_cons rfl ihl ihr
  | signed _ _ ih => exact isChain_cons (by nofun) ih
  | number | string | reference | range | name => exact .singleton _
  | call name args _ ih =>
      have hparts : ∀ part ∈ args.map (·.1), part.IsChain Follows :=
        List.forall_mem_map.mpr ih
      exact isChain_cons (by nofun)
        (isChain_cons (by nofun) (isChain_append_cons rfl (isChain_commas hparts) .nil))
  | parenthesized _ ih => exact isChain_cons (by nofun) (isChain_append_cons rfl ih .nil)

/-- A range with an operand right after it stands somewhere among the
lexemes. -/
def Jammed (ls : List Lexeme) : Prop :=
  ∃ left text next right, ls = left ++ .range text :: next :: right ∧ next.startsOperand = true

theorem Jammed.cons (first : Lexeme) (h : Jammed ls) : Jammed (first :: ls) := by
  obtain ⟨left, text, next, right, rfl, hnext⟩ := h
  exact ⟨first :: left, text, next, right, rfl, hnext⟩

/-- Where a range runs into an operand there is no expression. -/
theorem not_derives_of_jammed {rule : Rule} {e : Expr} (h : Jammed ls) : ¬Derives rule ls e := by
  obtain ⟨left, text, next, right, rfl, hnext⟩ := h
  intro hderives
  have hchain := (List.isChain_append.mp (isChain_of_derives hderives)).2.1
  rw [(List.isChain_cons_cons.mp hchain).1 text rfl] at hnext
  cases hnext

end Grammar

end Spreadsheet
