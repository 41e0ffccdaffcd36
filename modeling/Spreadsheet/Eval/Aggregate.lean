/-
The functions over one range: SUM, AVERAGE, MIN, MAX, COUNT and COUNTA.

# The argument

The argument is a range or a reference, and nothing else. A range that names
no cells is allowed and has none. A reference stands for the cell of its key
as it is spelled, while the cells of a range are listed by their places.

# What is counted

For the first four every cell has a number, zero if its text has none; COUNT
counts the texts that start with a number, and COUNTA the texts that are not
empty. Without cells each of them is zero.

# What is no number

Once MIN or MAX meets what is no number, that is what it comes to. A sum
comes to it as every addition does.
-/
import Spreadsheet.Binary64.Sum
import Spreadsheet.Eval.Environment
import Spreadsheet.Formula.Expr
import Spreadsheet.Number.Display
import Spreadsheet.Range

namespace Spreadsheet.Eval

/-- A failure of the formula. -/
def fail (failure : Failure) : Except Fault α :=
  .error (.failure failure)

/-- The keys of the cells that the one argument of an aggregate
names. -/
def aggregateKeys (function : Aggregate) (args : List Expr) : Except Fault (List Text) :=
  match args with
  | [.range text] => Range.expand text
  | [.reference key] => .ok [key]
  | [_] => fail (.rangeArgument (.aggregate function))
  | _ => fail (.argumentCount (.aggregate function) 1 args.length)

/-- The least of some numbers; the first of equal ones. -/
def least : Binary64 → List Binary64 → Binary64
  | x, [] => x
  | x, y :: rest => least (if y.lt x || y.isNan then y else x) rest

/-- The greatest of some numbers; the first of equal ones. -/
def greatest : Binary64 → List Binary64 → Binary64
  | x, [] => x
  | x, y :: rest => greatest (if y.gt x || y.isNan then y else x) rest

/-- The value of an aggregate of numbers. Without numbers all of them
are zero. -/
def aggregateNumbers (function : Aggregate) (numbers : List Binary64) : Binary64 :=
  match function, numbers with
  | .sum, _ => Binary64.sum numbers
  | .average, _ :: _ => (Binary64.sum numbers).divNat numbers.length
  | .min, x :: rest => least x rest
  | .max, x :: rest => greatest x rest
  | _, _ => Binary64.zero false

/-- Is a content counted by COUNT? -/
def isCounted (content : Content) : Except Fault Bool :=
  match content with
  | .text [] => .ok false
  | _ => do return (← Number.ofContent? content).isSome

/-- Is a content anything but the empty text? -/
def isFilled : Content → Bool
  | .text s => !s.isEmpty
  | .other _ => true

/-- The text of a count. -/
def countText (n : Nat) : Content :=
  .text (.ofChars (Nat.toDigits 10 n))

/-- The text of an aggregate over the cells that its argument names. -/
def aggregate (env : Environment) (function : Aggregate) (args : List Expr) :
    Except Fault Content := do
  let keys ← aggregateKeys function args
  match function with
  | .count =>
    let counted ← (← keys.mapM env.shown).mapM isCounted
    return countText (counted.count true)
  | .countA => return countText ((← keys.mapM env.shown).countP isFilled)
  | function =>
    return .text (Number.display (aggregateNumbers function (← keys.mapM env.numberOf)))

end Spreadsheet.Eval
