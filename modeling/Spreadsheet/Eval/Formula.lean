/-
What a cell shows for its formula.

# Expressions

A content that does not start with an equals sign is shown as it is. What
follows the sign is trimmed and read as an expression, which is evaluated
where it can be read.

# The second chance

A formula that is no expression is given a second chance: what is left of it
after all but figures, operators, parentheses and points are struck is
evaluated as plain arithmetic, without cells. If nothing is left, it shows
the code of an unknown name.

# Codes

Whatever goes wrong shows as an error code, so a formula always shows
something (`evaluateText`). Which code it is, is a matter of the fault.
-/
import Spreadsheet.Eval.Evaluator
import Spreadsheet.Formula.Parser

namespace Spreadsheet.Eval

-- ====================================================== plain arithmetic

/-- Does the character survive when a text is reduced to arithmetic? -/
def isArithmetic (c : CodePoint) : Bool :=
  Reference.isFigure c || (Text.ofString "+-*/().").contains c

/-- What is left of an expression in upper case when it is reduced to
arithmetic. -/
def reduced (expression : Text) : Text :=
  (Text.upper expression).filter isArithmetic

/-- The text that plain arithmetic shows; it sees no cells. -/
def arithmeticText (settings : Settings) (expression : Text) : Except Fault Content :=
  if expression.isEmpty then .ok (.text ErrorCode.name.text)
  else do
    let expr ← (Parser.parse expression).mapError .malformed
    let x ← number (Environment.ofStore .empty settings) expr
    return .text (Number.display x)

-- ====================================================== formulas

/-- The text that an expression shows, or why it has none. -/
def expressionText (env : Environment) (expression : Text) : Except Fault Content :=
  match Parser.parse expression with
  | .ok expr => display env expr
  | .error _ => arithmeticText env.settings (reduced expression)

/-- A result, or the error code of a fault. -/
def orCode (result : Except Fault Content) : Content :=
  match result with
  | .ok content => content
  | .error fault => .text fault.code.text

/-- What a text shows when it stands as the formula of a cell. -/
def evaluateText (env : Environment) (formula : Text) : Content :=
  match formula with
  | .char '=' :: expression => orCode (expressionText env (Text.trim expression))
  | _ => .text formula

/-- What a cell shows for its formula; without a formula it shows
nothing. -/
def evaluate (env : Environment) : Option Content → Option Content
  | some (.text s) => some (evaluateText env s)
  | content => content

end Spreadsheet.Eval
