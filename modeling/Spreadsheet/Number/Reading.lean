/-
Numbers read from texts.

# Forgiving

`leading?` is forgiving: the longest numeral in front counts, after blanks
and a sign, and the rest is ignored. The word for an infinite number counts
as a numeral. This is how the number of a cell is read, so a text such as 12
apples counts as twelve.

# Strict

`isNumeric` asks whether the whole text is a numeral with blanks around it.
`whole?` converts such a text as a whole; around it, the information
separators U+001C to U+001F are no blanks. So there are texts that pass the
one and are refused by the other.

# Values that are no text

A JSON number is taken as it is, and every other JSON value by its text. An
integer that no binary number is near is a fault.
-/
import Spreadsheet.Decimal.Numeral
import Spreadsheet.Fault
import Spreadsheet.Text.Blank

namespace Spreadsheet.Number

open Decimal (Numeral takeSign)
open Text (isBlank dropBlanks isDigit)

-- ====================================================== forgiving

/-- The number that the longest numeral in front of a text stands for;
the word Infinity is a numeral here. -/
def leading? (text : Text) : Option Binary64 :=
  let (negative, body) := takeSign (dropBlanks text)
  if (Text.ofString "Infinity").isPrefixOf body then some (.infinite negative)
  else (Numeral.scan body).map fun found => found.1.toBinary64 negative

/-- The integer that the digits in front of a text stand for. -/
def leadingInteger? (text : Text) : Except Fault (Option Int) :=
  let (negative, body) := takeSign (dropBlanks text)
  match body.takeWhile isDigit with
  | [] => .ok none
  | digits => do
    let n ← Fault.natOf digits
    return some (if negative then -(n : Int) else n)

-- ====================================================== strict

/-- Is a whole text a numeral, with blanks around it? -/
def isNumeric (text : Text) : Bool :=
  match Numeral.scan (takeSign (dropBlanks text)).2 with
  | none => false
  | some (_, rest) => rest.all isBlank

/-- Blanks that may stand around a number that is converted as a
whole. -/
def isMargin (c : CodePoint) : Bool :=
  isBlank c && !c.within '\x1c' '\x1f'

/-- The number that a whole text stands for. -/
def whole? (text : Text) : Option Binary64 :=
  let (negative, body) := takeSign (text.dropWhile isMargin)
  match Numeral.scan body with
  | some (numeral, rest) => if rest.all isMargin then some (numeral.toBinary64 negative) else none
  | none => none

/-- The number that a whole text stands for; another text is a fault. -/
def whole (text : Text) : Except Fault Binary64 :=
  match whole? text with
  | some x => .ok x
  | none => .error (.unreadableNumber text)

-- ====================================================== numbers from JSON values

/-- The number a JSON value stands for: numbers are taken as they are,
and another value by its text. -/
def ofJson? : Json → Except Fault (Option Binary64)
  | .null => .ok none
  | .integer n =>
    let x := Binary64.ofInt n
    if x.isInfinite then .error .integerTooLarge else .ok (some x)
  | .real x => .ok (some x)
  | json => .ok (leading? json.plain)

/-- The number a content stands for. -/
def ofContent? : Content → Except Fault (Option Binary64)
  | .text s => .ok (leading? s)
  | .other json => ofJson? json

/-- The integer a JSON value stands for. A boolean is an integer
already; a number loses its fraction; another value is taken by its
text, and one that is void has none. -/
def integerOfJson? : Json → Except Fault (Option Json)
  | .real x => .ok (x.truncate?.map .integer)
  | .integer n => .ok (some (.integer n))
  | .bool b => .ok (some (.bool b))
  | json => do
    return (← leadingInteger? (if json.isVoid then [] else json.plain)).map .integer

/-- Is a JSON value a text that is a number as a whole? -/
def isNumericJson : Json → Bool
  | .string s => isNumeric s
  | _ => false

end Spreadsheet.Number
