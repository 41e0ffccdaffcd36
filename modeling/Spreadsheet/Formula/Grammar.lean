/-
The grammar of expressions.

    formula    := comparison
    comparison := additive [comparator additive]
    additive   := term {('+' | '-') term}
    term       := unary {('*' | '/') unary}
    unary      := ('+' | '-') unary | primary
    primary    := number | string | reference | range
                | name '(' [comparison {',' comparison}] ')'
                | name
                | '(' comparison ')'

`Derives` says which lexemes are derived from each rule, and which
expression they are. A repetition is taken from the left: what stands
before its last operator is derived from the same rule, so sums and
products group to the left. Nothing is said here of how an expression is
found.
-/
import Spreadsheet.Formula.Expr

namespace Spreadsheet.Grammar

/-- The rules that stand for expressions. -/
inductive Rule where
  | comparison
  | additive
  | term
  | unary
  | primary
deriving DecidableEq, Repr

/-- Lexemes are derived from a rule, and are an expression. -/
inductive Derives : Rule → List Lexeme → Expr → Prop where
  /-- An operand that is compared with nothing. -/
  | operand {ls e} (h : Derives .additive ls e) : Derives .comparison ls e
  /-- Two operands compared; neither is a comparison itself. -/
  | comparison {ls rs l r} (hl : Derives .additive ls l) (op : Comparator)
      (hr : Derives .additive rs r) :
      Derives .comparison (ls ++ .comparison op :: rs) (.comparison op l r)
  | firstTerm {ls e} (h : Derives .term ls e) : Derives .additive ls e
  | nextTerm {ls rs l r op} (hl : Derives .additive ls l) (hop : op = .add ∨ op = .sub)
      (hr : Derives .term rs r) : Derives .additive (ls ++ .operator op :: rs) (.binary op l r)
  | firstFactor {ls e} (h : Derives .unary ls e) : Derives .term ls e
  | nextFactor {ls rs l r op} (hl : Derives .term ls l) (hop : op = .mul ∨ op = .div)
      (hr : Derives .unary rs r) : Derives .term (ls ++ .operator op :: rs) (.binary op l r)
  | signed {ls e op sign} (hsign : op.sign? = some sign) (h : Derives .unary ls e) :
      Derives .unary (.operator op :: ls) (.unary sign e)
  | unsigned {ls e} (h : Derives .primary ls e) : Derives .unary ls e
  | number (text : Text) : Derives .primary [.number text] (.number text)
  | string (value : Text) : Derives .primary [.string value] (.string value)
  | reference (key : Text) : Derives .primary [.reference key] (.reference key)
  | range (text : Text) : Derives .primary [.range text] (.range text)
  | name (name : Text) : Derives .primary [.name name] (.name name)
  /-- A call: any number of arguments, each with its lexemes, and commas
  between them. -/
  | call (name : Text) (args : List (List Lexeme × Expr))
      (h : ∀ arg ∈ args, Derives .comparison arg.1 arg.2) :
      Derives .primary
        (.name name :: .openParen
          :: ([Lexeme.comma].intercalate (args.map (·.1)) ++ [.closeParen]))
        (.call name (args.map (·.2)))
  /-- Parentheses leave no trace in the expression. -/
  | parenthesized {ls e} (h : Derives .comparison ls e) :
      Derives .primary (.openParen :: (ls ++ [.closeParen])) e

end Spreadsheet.Grammar
