/-
The tokens of a formula.

# What is kept of a spelling

Names, references and ranges are kept in upper case and without blanks, so
that two spellings of one name are one token; string literals keep their
characters, and numbers their spelling.

# Operators

Signs, operators and comparisons are types of their own, and each of them
has one text or several. Equality and its negation have two spellings each,
which are told apart here because messages repeat them, and mean the same
when they are evaluated.

# Positions

A token has the position where it starts, which only messages make use of. A
lexeme is what is left of a token without it.
-/
import Spreadsheet.Text.Basic

namespace Spreadsheet

/-- A sign in front of an operand. -/
inductive Sign where
  | plus
  | minus
deriving DecidableEq, Repr

/-- An arithmetic operator. -/
inductive Operator where
  | add
  | sub
  | mul
  | div
deriving DecidableEq, Repr

/-- A comparison; equality and its negation have two spellings each. -/
inductive Comparator where
  | greater
  | less
  | atLeast
  | atMost
  | equal
  | doubleEqual
  | unequal
  | angleUnequal
deriving DecidableEq, Repr

def Sign.text : Sign → String
  | plus => "+"
  | minus => "-"

def Operator.text : Operator → String
  | add => "+"
  | sub => "-"
  | mul => "*"
  | div => "/"

/-- The sign that an operator is when no operand stands before it. -/
def Operator.sign? : Operator → Option Sign
  | add => some .plus
  | sub => some .minus
  | _ => none

def Comparator.text : Comparator → String
  | greater => ">"
  | less => "<"
  | atLeast => ">="
  | atMost => "<="
  | equal => "="
  | doubleEqual => "=="
  | unequal => "!="
  | angleUnequal => "<>"

/-- What a token is. -/
inductive Lexeme where
  | number (text : Text)
  | string (value : Text)
  | range (text : Text)
  | reference (key : Text)
  | name (name : Text)
  | operator (op : Operator)
  | comparison (op : Comparator)
  | openParen
  | closeParen
  | comma
deriving DecidableEq, Repr

/-- The text of a token as messages give it. -/
def Lexeme.text : Lexeme → Text
  | number s => s
  | string s => s
  | range s => s
  | reference s => s
  | name s => s
  | operator op => op.text
  | comparison op => op.text
  | openParen => "("
  | closeParen => ")"
  | comma => ","

/-- A token and the position where it starts. -/
structure Token where
  lexeme : Lexeme
  start : Nat
deriving DecidableEq, Repr

end Spreadsheet
