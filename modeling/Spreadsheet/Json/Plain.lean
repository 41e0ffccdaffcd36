/-
The plain text of a JSON value, where a text is wanted and another value was
given.

# Values alone

A text stands for itself, and every other value is written out: the single
words by their names, integers in their digits, and binary numbers in the
form in which messages name them.

# Values inside others

Inside an array or an object texts are quoted, so that the parts can be told
apart. The recursion is on the value, with a function for the items of an
array and one for the fields of an object.
-/
import Spreadsheet.Text.Quoted
import Spreadsheet.Decimal.Layout
import Spreadsheet.Json.Basic

namespace Spreadsheet

namespace Json

mutual

/-- A value as it stands inside another. -/
def inner : Json → Text
  | null => "None"
  | bool true => "True"
  | bool false => "False"
  | integer n => Decimal.integer n
  | real x => Decimal.literal x
  | string s => Text.quoted s
  | array items => "[" ++ innerItems items ++ "]"
  | object fields => "\x7b" ++ innerFields fields ++ "\x7d"

/-- The items of an array, with commas between. -/
def innerItems : List Json → Text
  | [] => []
  | [x] => inner x
  | x :: xs => inner x ++ ", " ++ innerItems xs

/-- The fields of an object, with commas between. -/
def innerFields : List (Text × Json) → Text
  | [] => []
  | [(name, x)] => Text.quoted name ++ ": " ++ inner x
  | (name, x) :: fs => Text.quoted name ++ ": " ++ inner x ++ ", " ++ innerFields fs

end

/-- The text a value stands for. -/
def plain : Json → Text
  | string s => s
  | json => json.inner

end Json

end Spreadsheet
