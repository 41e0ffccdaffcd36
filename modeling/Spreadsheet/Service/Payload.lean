/-
The payload of a request: a JSON object with the fields of a form and the
cells of a sheet.

# Before a body is read

The service takes bodies of ten megabytes at most. The size is that of the
body in UTF-8, and it is looked at first: a body that is too large is
refused whatever it says, and nothing of it is parsed. An empty body stands
for an object without fields.

# What a payload carries

The fields are checked by a form, each on its own, and the complaints about
all of them are gathered. The cells are made into a store by its own loader,
after the form.
-/
import Spreadsheet.Json.Reader
import Spreadsheet.Range
import Spreadsheet.Service.Encoding
import Spreadsheet.Service.Form
import Spreadsheet.Store

namespace Spreadsheet.Service

/-- Why a request is refused before anything is evaluated. -/
inductive Refusal where
  | tooLarge
  | undecodable (fault : EncodingFault)
  | notJson (text : Text) (stop : Json.Stop)
  | notObject
  | form (complaints : List (Text × List Complaint))
  | invalidCells (fault : Fault)
  | fault (fault : Fault)

-- ====================================================== the object

/-- The most bytes that a request body may have. -/
def bodyLimit : Nat := 10485760

/-- The fields of a request body; an empty body has none. The size of
the body is looked at before anything in it is. -/
def payload (body : String) : Except Refusal (Entries Json) := do
  if bodyLimit < body.utf8ByteSize then throw .tooLarge
  if body.isEmpty then return []
  let text ← (bodyText body).mapError .undecodable
  match ← (Json.parse text).mapError (.notJson text) with
  | .object fields => return fields
  | _ => throw .notObject

/-- The cells that a payload carries. -/
def cellsOf (fields : Entries Json) : Except Refusal Store :=
  (Store.ofJson ((fields.find? "cells").getD .null)).mapError .invalidCells

-- ====================================================== forms

/-- The text of one field of a payload. -/
def cleanField (fields : Entries Json) (field : Field) : Except (List Complaint) Text :=
  field.clean ((fields.find? field.name).getD .null)

/-- A complaint of a form itself. -/
def formComplaint (message : Text) : List Complaint :=
  [⟨message, ""⟩]

/-- Does a text name a cell? A row with too many digits counts as no
name, as every fault in a form does. -/
def namesCell (text : Text) : Bool :=
  match Reference.parse? text with
  | .ok (some _) => true
  | _ => false

/-- The key that a text names, in upper case. -/
def cleanKey (text : Text) : Except (List Complaint) Text :=
  let key := Text.upper (Text.trim text)
  if namesCell key then .ok key
  else .error (formComplaint ("'" ++ key ++ "' is not a cell reference."))

/-- Do the two sides of the only colon of a text name cells? -/
def isRangeText (text : Text) : Bool :=
  match Range.corners? text with
  | some (first, second) => namesCell first && namesCell second
  | none => false

/-- The range that a text names, in upper case. -/
def cleanRange (text : Text) : Except (List Complaint) Text :=
  let range := Text.upper (Text.trim text)
  if isRangeText range then .ok range
  else .error (formComplaint ("'" ++ range ++ "' is not a range like A1:B3."))

/-- The form of a single evaluation: a formula, and the cell it stands
in. -/
def evaluateForm (fields : Entries Json) : Except Refusal (Text × Text) :=
  let formula := cleanField fields ⟨"formula", false, false, none⟩
  let key := do cleanKey (← cleanField fields ⟨"cell_id", true, true, some 16⟩)
  match formula, key with
  | .ok formula, .ok key => .ok (formula, key)
  | formula, key =>
    let found (name : Text) (result : Except (List Complaint) Text) :=
      match result with
      | .ok _ => []
      | .error complaints => [(name, complaints)]
    .error (.form (found "formula" formula ++ found "cell_id" key))

/-- The form of a range to expand. -/
def rangeForm (fields : Entries Json) : Except Refusal Text :=
  (do cleanRange (← cleanField fields ⟨"range", true, true, some 64⟩)).mapError
    fun complaints => .form [("range", complaints)]

/-- The form of a recalculation: the edited cell, if one is named. -/
def recalculateForm (fields : Entries Json) : Except Refusal (Option Text) :=
  (do
    let text ← cleanField fields ⟨"edited_cell", false, true, some 16⟩
    if text.isEmpty then return none
    else return some (← cleanKey text)).mapError
    fun complaints => .form [("edited_cell", complaints)]

end Spreadsheet.Service
