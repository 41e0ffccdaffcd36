/-
The cells that an expression names, and where the parser finds them.

# Leaves

The leaves of an expression that name cells are its references and its
ranges (`Expr.operands`). A bare name is no such leaf, and neither is the
name of a function. Arguments of a call are expressions of their own, so
induction on an expression has to be given in a form that reaches into the
list of arguments (`Expr.inductionOn`).

# Lexemes

The grammar makes no such leaf up: every one of them is a lexeme that the
expression is derived from (`operands_subset`), and so a lexeme of a token
that the parser took (`operands_of_parse`). This is what lets the cells of a
formula be found in its tokens, without reading the formula. The converse
fails, and need not hold: the tokens of a text that is no expression name
cells as well.
-/
import Spreadsheet.Proofs.Formula.Soundness

namespace Spreadsheet

-- ====================================================== operands

namespace Expr

mutual

/-- The references and ranges of an expression, from left to right. -/
def operands : Expr → List Lexeme
  | .reference key => [.reference key]
  | .range text => [.range text]
  | .unary _ operand => operands operand
  | .binary _ left right => operands left ++ operands right
  | .comparison _ left right => operands left ++ operands right
  | .call _ args => operandsOfAll args
  | .number _ => []
  | .string _ => []
  | .name _ => []
termination_by structural e => e

/-- The references and ranges of some expressions. -/
def operandsOfAll : List Expr → List Lexeme
  | [] => []
  | first :: others => operands first ++ operandsOfAll others
termination_by structural es => es

end

theorem mem_operandsOfAll {args : List Expr} {lexeme : Lexeme} :
    lexeme ∈ operandsOfAll args ↔ ∃ arg ∈ args, lexeme ∈ arg.operands := by
  induction args with
  | nil => simp [operandsOfAll]
  | cons first others ih => simp [operandsOfAll, ih]

/-- Induction on an expression: a call may assume the statement of each
of its arguments. -/
theorem inductionOn {motive : Expr → Prop} (number : ∀ text, motive (.number text))
    (string : ∀ value, motive (.string value)) (reference : ∀ key, motive (.reference key))
    (range : ∀ text, motive (.range text)) (name : ∀ name, motive (.name name))
    (unary : ∀ sign operand, motive operand → motive (.unary sign operand))
    (binary : ∀ op left right, motive left → motive right → motive (.binary op left right))
    (comparison : ∀ op left right, motive left → motive right →
      motive (.comparison op left right))
    (call : ∀ name args, (∀ arg ∈ args, motive arg) → motive (.call name args)) (e : Expr) :
    motive e :=
  @Expr.rec motive (fun args => ∀ arg ∈ args, motive arg) number string reference range name
    unary binary comparison call (fun _ hmem => absurd hmem (List.not_mem_nil))
    (fun _ _ hfirst hothers _ hmem =>
      (List.mem_cons.mp hmem).elim (fun h => h ▸ hfirst) (hothers _)) e

end Expr

-- ====================================================== operands and lexemes

/-- Between commas stand the lexemes of all parts, and commas if there
are two parts or more. -/
theorem mem_commas {parts : List (List Lexeme)} {lexeme : Lexeme} :
    lexeme ∈ [Lexeme.comma].intercalate parts ↔
      (∃ part ∈ parts, lexeme ∈ part) ∨ lexeme = .comma ∧ 2 ≤ parts.length := by
  induction parts with
  | nil => simp
  | cons part parts ih =>
      cases parts with
      | nil => simp
      | cons next parts =>
          have hlength : 2 ≤ (part :: next :: parts).length := Nat.le_add_left 2 _
          rw [List.intercalate_cons_cons, List.append_assoc, List.mem_append, List.mem_append, ih,
            List.mem_singleton, List.exists_mem_cons_iff (lexeme ∈ ·) part, and_iff_left hlength]
          grind

/-- The operands of an expression are among the lexemes it is derived
from. -/
theorem Grammar.Derives.operands_subset {rule : Rule} {ls : List Lexeme} {e : Expr}
    (h : Derives rule ls e) : e.operands ⊆ ls := by
  -- what two operands bring is on the two sides of the lexeme between them
  have hbinary : ∀ {ls rs ls' rs' : List Lexeme} {between : Lexeme}, ls' ⊆ ls → rs' ⊆ rs →
      ls' ++ rs' ⊆ ls ++ between :: rs := fun hl hr =>
    List.append_subset.mpr ⟨fun _ hmem => List.mem_append_left _ (hl hmem),
      fun _ hmem => List.mem_append_right _ (List.mem_cons_of_mem _ (hr hmem))⟩
  induction h with
  | operand _ ih | firstTerm _ ih | firstFactor _ ih | unsigned _ ih => exact ih
  | comparison _ _ _ ihl ihr => exact hbinary ihl ihr
  | nextTerm _ _ _ ihl ihr | nextFactor _ _ _ ihl ihr => exact hbinary ihl ihr
  | signed _ _ ih => exact List.subset_cons_of_subset _ ih
  | number | string | name => exact List.nil_subset _
  | reference | range => exact List.Subset.refl _
  | call name args _ ih =>
      intro lexeme hlexeme
      obtain ⟨arg, harg, hmem⟩ := Expr.mem_operandsOfAll.mp hlexeme
      obtain ⟨part, hpart, rfl⟩ := List.mem_map.mp harg
      have hcommas := mem_commas.mpr (.inl ⟨part.1, List.mem_map_of_mem hpart, ih part hpart hmem⟩)
      exact List.mem_cons_of_mem _ (List.mem_cons_of_mem _ (List.mem_append_left _ hcommas))
  | parenthesized _ ih =>
      exact List.subset_cons_of_subset _ (List.Subset.trans ih (List.subset_append_left ..))

namespace Parser

/-- The operands of the expression that a text is stand among its
lexemes. -/
theorem operands_of_parse {expression : Text} {e : Expr} (h : parse expression = .ok e) :
    ∃ tokens, Lexer.tokens expression = .ok tokens ∧
      ∀ lexeme ∈ e.operands, lexeme ∈ tokens.map Token.lexeme := by
  obtain ⟨tokens, htokens, h⟩ := bind_eq_ok.mp h
  exact ⟨tokens, htokens, fun _ hmem => (derives_of_parseTokens h).operands_subset hmem⟩

end Parser

end Spreadsheet
