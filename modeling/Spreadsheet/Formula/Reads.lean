/-
The cells a formula reads, found from its tokens.

# From tokens

A text that is no formula reads nothing, and neither does a formula that
does not split into tokens. Whether the tokens are an expression is not
asked, so a formula with a fault further on still reads what it names. Keys
are listed as they are named, so one may stand more than once.

# Faults

A range whose rows have too many digits cannot be listed, and is a fault of
the formula that names it. So is a formula that is no text, if a client sent
one.
-/
import Spreadsheet.Formula.Lexer
import Spreadsheet.Range

namespace Spreadsheet

namespace Formula

/-- The keys that a token names. -/
def keysOf : Lexeme → Except Fault (List Text)
  | .reference key => .ok [key]
  | .range text => Range.expand text
  | _ => .ok []

/-- The keys of the cells that a formula reads. -/
def readsOfText (formula : Text) : Except Fault (List Text) :=
  match formula with
  | .char '=' :: expression =>
    match Lexer.tokens expression with
    | .error _ => .ok []
    | .ok tokens => do
      let keys ← tokens.mapM fun token => keysOf token.lexeme
      return keys.flatten
  | _ => .ok []

/-- The keys of the cells that the formula of a cell reads; a formula
must be a text. -/
def reads : Content → Except Fault (List Text)
  | .text formula => readsOfText formula
  | .other json => if json.isVoid then .ok [] else .error (.formulaNotText json)

end Formula

end Spreadsheet
