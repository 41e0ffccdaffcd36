/-
The content of a cell's formula or display.

# Texts and other values

It is nearly always a text. A client may also put another JSON value in the
place of a formula; such a value is kept, and is shown as it is. It is no
formula to be read, so asking what it reads is a fault.

# When contents are the same

Two texts are the same if they are equal. Other values are compared as JSON
values, where 1 and 1.0 are the same although they are written differently
(`same`). This decides what counts as a change, and what an exact search
finds.
-/
import Spreadsheet.Json.Plain

namespace Spreadsheet

/-- A text, or another value in its place. -/
inductive Content where
  | text (s : Text)
  | other (value : Json)
deriving Inhabited

namespace Content

def ofJson : Json → Content
  | .string s => text s
  | json => other json

def toJson : Content → Json
  | text s => .string s
  | other json => json

/-- Is there nothing to show? -/
def isVoid : Content → Bool
  | text s => s.isEmpty
  | other json => json.isVoid

/-- Do two contents show the same? -/
def same : Content → Content → Bool
  | text s, text t => s == t
  | x, y => x.toJson.same y.toJson

/-- The text a content stands for. -/
def plain (content : Content) : Text :=
  content.toJson.plain

/-- A content as messages quote it. -/
def quoted (content : Content) : Text :=
  content.toJson.inner

end Content

end Spreadsheet
