/-
Reports: an error as a client reads it.

# Kinds of trouble

Four kinds of trouble are told apart from the rest: failures of a formula,
texts that are no formula, division by zero, and values of the wrong kind. A
fault is one of these by its cause (`Fault.trouble`), and every cause that
is not named there is one of the rest.

# The report

A report has a code, a message, details, and the context that the trouble
arose in. Only a failure has a message of its own; the others have one for
their kind, and their own wording stands under the details.
-/
import Spreadsheet.Fault

namespace Spreadsheet

/-- A trouble with its text. -/
inductive Trouble where
  | failure (code : ErrorCode) (message : Text) (details : Json)
  | malformed (text : Text)
  | division (text : Text)
  | wrongValue (text : Text)
  | other (text : Text)

namespace Trouble

/-- The error code a cell shows for a trouble. -/
def code : Trouble → ErrorCode
  | failure code _ _ => code
  | _ => .error

/-- The whole text of a trouble. -/
def text : Trouble → Text
  | failure code message _ => Text.trim (code.text ++ " " ++ message)
  | malformed s => s
  | division s => s
  | wrongValue s => s
  | other s => s

/-- The report on a trouble: the code, a message, the details, and where
it arose. -/
def report (trouble : Trouble) (context : Json) : Json :=
  let (code, message, details) :=
    match trouble with
    | failure code message details => (code, message, details)
    | malformed s => (.name, "Invalid formula", .string s)
    | division s => (.error, "Division by zero", .string s)
    | wrongValue s => (.value, "Value error", .string s)
    | other s => (.error, "Formula error", .string s)
  .object [("error_code", .string code.text), ("message", .string message),
    ("details", details), ("context", context)]

end Trouble

/-- The trouble that a fault is. -/
def Fault.trouble : Fault → Trouble
  | .failure f => .failure f.code f.message .null
  | .malformed f => .malformed f.message
  | .divisionByZero => .division Fault.divisionByZero.message
  | .tooManyDigits count => .wrongValue (Fault.tooManyDigits count).message
  | .unreadableNumber text => .wrongValue (Fault.unreadableNumber text).message
  | .contentNotText content => .wrongValue (Fault.contentNotText content).message
  | .cellNotObject json => .wrongValue (Fault.cellNotObject json).message
  | .cellsNotObject => .wrongValue Fault.cellsNotObject.message
  | fault => .other fault.message

end Spreadsheet
