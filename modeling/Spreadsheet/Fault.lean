/-
What can go wrong, by cause.

# Failures, syntax faults and faults

A failure belongs to the formula and shows as one of the error codes of a
spreadsheet. A syntax fault says why a text is no formula, and where. A
fault is either of these or a trouble outside the language of formulas: a
number with too many digits, a cell that is no cell.

# Wordings

The wording of every cause is here and nowhere else. A cause carries the
values that its wording names, such as the name of a function or the number
of its arguments, so that a message is a matter of the cause alone.

# Codes

Every failure has a code of its own choice; every other fault has the
general one.
-/
import Spreadsheet.Content
import Spreadsheet.Formula.Function
import Spreadsheet.Text.Blank
import Spreadsheet.Text.Encodable

namespace Spreadsheet

-- ====================================================== error codes

/-- The error codes a cell can show. -/
inductive ErrorCode where
  | value
  | notAvailable
  | name
  | reference
  | division
  | error
deriving DecidableEq, Repr

namespace ErrorCode

/-- The code as a cell shows it. -/
def text : ErrorCode → Text
  | value => "#VALUE!"
  | notAvailable => "#N/A"
  | name => "#NAME?"
  | reference => "#REF!"
  | division => "#DIV/0!"
  | error => "#ERROR!"

def all : List ErrorCode :=
  [value, notAvailable, name, reference, division, error]

/-- The code of a named type of error; a name that is not known is a
general error. -/
def ofTypeName (typeName : String) : ErrorCode :=
  ([("VALUE", value), ("NA", notAvailable), ("NAME", name), ("REF", reference),
    ("DIV0", division)].lookup typeName).getD error

/-- Is the value the text of an error code? -/
def isShownBy : Json → Bool
  | .string s => all.any (·.text == s)
  | _ => false

end ErrorCode

-- ====================================================== failures

/-- Why a formula has no value. -/
inductive Failure where
  | argumentCount (function : Function) (expected got : Nat)
  | rangeArgument (function : Function)
  | rangeAsValue
  | notNumber (content : Content)
  | unknownName (name : Text)
  | unknownFunction (name : Text)
  | roundOperands
  | roundPlaces (places : Binary64)
  | lookupArgumentCount (got : Nat)
  | lookupTable
  | lookupRange (text : Text)
  | lookupColumn
  | columnOutside (column : Int)
  | notFound (wanted : Content)

namespace Failure

/-- The error code a failure shows as. -/
def code : Failure → ErrorCode
  | argumentCount .. => .value
  | rangeArgument _ => .value
  | rangeAsValue => .value
  | notNumber _ => .value
  | unknownName _ => .name
  | unknownFunction _ => .name
  | roundOperands => .value
  | roundPlaces _ => .error
  | lookupArgumentCount _ => .value
  | lookupTable => .notAvailable
  | lookupRange _ => .notAvailable
  | lookupColumn => .value
  | columnOutside _ => .reference
  | notFound _ => .notAvailable

/-- The wording of a failure. -/
def message : Failure → Text
  | argumentCount function expected got =>
    s!"{function.name} expects {expected} argument(s), got {got}"
  | rangeArgument function => s!"{function.name} expects a range"
  | rangeAsValue => "A range cannot be used as a single value"
  | notNumber content => content.quoted ++ " is not a number"
  | unknownName name => "Unknown name " ++ name
  | unknownFunction name => "Unknown function " ++ name
  | roundOperands => "ROUND arguments must be numbers"
  | roundPlaces places =>
    "ROUND cannot format to " ++ Text.ofChars (Decimal.literal places) ++ " places"
  | lookupArgumentCount got => s!"VLOOKUP expects 3 or 4 arguments, got {got}"
  | lookupTable => "VLOOKUP table must be a range"
  | lookupRange text => "Invalid range " ++ text
  | lookupColumn => "VLOOKUP column index must be a number"
  | columnOutside column =>
    "Column index " ++ Text.ofChars (Decimal.integer column) ++ " is outside the range"
  | notFound wanted => wanted.quoted ++ " not found"

end Failure

-- ====================================================== syntax faults

/-- Why a text is no formula, and where. -/
inductive SyntaxFault where
  | unexpectedCharacter (c : CodePoint) (position : Nat)
  | empty
  | unexpectedToken (value : Text) (position : Nat)
  | unclosed (value : Text) (position : Nat)
  | unexpectedEnd (position : Nat)
deriving DecidableEq

/-- A message with the position it is about, if there is one. -/
def located (message : Text) (position : Int) : Text :=
  if position < 0 then message
  else message ++ " at position " ++ Text.ofChars (Decimal.integer position)

/-- The wording of a syntax fault. -/
def SyntaxFault.message : SyntaxFault → Text
  | unexpectedCharacter c position =>
    located ("Unexpected character " ++ Text.quoted [c]) position
  | empty => located "Empty formula" (-1)
  | unexpectedToken value position => located ("Unexpected " ++ Text.quoted value) position
  | unclosed value position => located ("Expected RPAREN, got " ++ Text.quoted value) position
  | unexpectedEnd position => located "Unexpected end of formula" position

-- ====================================================== faults

/-- Everything that can go wrong. -/
inductive Fault where
  | failure (failure : Failure)
  | malformed (fault : SyntaxFault)
  | divisionByZero
  | tooManyDigits (count : Nat)
  | unreadableNumber (text : Text)
  | infiniteInteger
  | integerTooLarge
  | decimalTooLong
  | contentNotText (content : Content)
  | formulaNotText (formula : Json)
  | cellNotObject (data : Json)
  | cellsNotObject
  | missingCell (key : Text)
  | unencodablePattern (fault : Text.Unencodable)

namespace Fault

/-- The error code a cell shows for a fault: whatever is no failure of
the formula is a general error. -/
def code : Fault → ErrorCode
  | failure f => f.code
  | _ => .error

/-- The wording of a fault. -/
def message : Fault → Text
  | failure f => Text.trim (f.code.text ++ " " ++ f.message)
  | malformed f => f.message
  | divisionByZero => "float division by zero"
  | tooManyDigits count => Decimal.tooManyDigitsMessage count
  | unreadableNumber text => "could not convert string to float: " ++ Text.quoted text
  | infiniteInteger => "cannot convert float infinity to integer"
  | integerTooLarge => "int too large to convert to float"
  | decimalTooLong => "quantize result has too many digits for current context"
  | contentNotText content => s!"expected a text, got {content.toJson.kindName}"
  | formulaNotText formula => s!"'{formula.kindName}' object has no attribute 'startswith'"
  | cellNotObject data => s!"Cell data must be an object, got {data.kindName}"
  | cellsNotObject => "Cells must be an object keyed by cell id"
  | missingCell key => Text.quoted key
  | unencodablePattern fault => fault.message

/-- The number a run of digits stands for; one that is too long is a
fault. -/
def natOf (digits : Text) : Except Fault Nat :=
  (Decimal.natOf digits).mapError tooManyDigits

end Fault

end Spreadsheet
