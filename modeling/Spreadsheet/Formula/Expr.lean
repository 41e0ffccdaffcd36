/-
Expressions: what a formula says once it is read.

A literal number keeps its spelling, since a text may show it as it was
written, and a string the characters between its quotes. References and
ranges are kept as texts too: whether they name cells is asked when they are
evaluated or when a graph is built, and may then be a fault. The name of a
call need not be that of a function.

Parentheses leave no trace but the grouping, so an expression does not tell
how it was spelled.
-/
import Spreadsheet.Formula.Token

namespace Spreadsheet

/-- An expression. Parentheses leave no trace but the grouping. -/
inductive Expr where
  | number (text : Text)
  | string (value : Text)
  | reference (key : Text)
  | range (text : Text)
  | name (name : Text)
  | unary (sign : Sign) (operand : Expr)
  | binary (op : Operator) (left right : Expr)
  | comparison (op : Comparator) (left right : Expr)
  | call (name : Text) (args : List Expr)
deriving Repr, Inhabited

/-- Is the expression a bare name? -/
def Expr.isName : Expr → Bool
  | name _ => true
  | _ => false

end Spreadsheet
