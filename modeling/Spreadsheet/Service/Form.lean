/-
Form fields: text that a request must or may carry.

# What counts as given

A value that is null or an empty text, array or object counts as not given;
any other value that is no text stands for its text.

# Checks

A given text is trimmed, where the field asks for it, and then checked: it
must not be too long, and must hold no null character. A text of nothing but
blanks is empty once it is trimmed, so a required field refuses it. All
complaints about a text are gathered.

# One field

A field is what it asks of its value, and all fields are checked by the same
function. What one form asks beyond that is said where the form is
(`Service.Payload`).
-/
import Spreadsheet.Json.Plain
import Spreadsheet.Text.Blank

namespace Spreadsheet.Service

/-- A complaint about a field, with the code of its kind. -/
structure Complaint where
  message : Text
  code : String
deriving DecidableEq, Repr

/-- What a field asks of its value. -/
structure Field where
  name : Text
  required : Bool
  trimmed : Bool
  maxLength : Option Nat

namespace Field

/-- Is a value as good as none? -/
def isBlankValue : Json → Bool
  | .null => true
  | .string s => s.isEmpty
  | .array items => items.isEmpty
  | .object fields => fields.isEmpty
  | _ => false

/-- The text of a value, before it is checked. -/
def textOf (field : Field) (value : Json) : Text :=
  if isBlankValue value then []
  else if field.trimmed then Text.trim value.plain
  else value.plain

/-- The complaint about a text that is too long. -/
def tooLong (limit length : Nat) : Complaint :=
  ⟨s!"Ensure this value has at most {limit} characters (it has {length}).", "max_length"⟩

/-- The complaints about a text that is not empty. -/
def complaints (field : Field) (text : Text) : List Complaint :=
  (match field.maxLength with
    | some limit => if limit < text.length then [tooLong limit text.length] else []
    | none => [])
  ++ (if text.contains (.char '\x00') then
      [⟨"Null characters are not allowed.", "null_characters_not_allowed"⟩] else [])

/-- The text of a field, or the complaints about it. -/
def clean (field : Field) (value : Json) : Except (List Complaint) Text :=
  let text := field.textOf value
  if text.isEmpty then
    if field.required then .error [⟨"This field is required.", "required"⟩] else .ok []
  else
    match field.complaints text with
    | [] => .ok text
    | found => .error found

end Field

/-- The complaints about the fields of a form as a client reads them. -/
def complaintsJson (complaints : List (Text × List Complaint)) : Json :=
  .object <| complaints.map fun (name, found) =>
    (name, .array <| found.map fun complaint =>
      .object [("message", .string complaint.message), ("code", .string complaint.code)])

end Spreadsheet.Service
