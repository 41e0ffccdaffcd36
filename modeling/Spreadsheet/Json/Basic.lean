/-
JSON values, as clients send and receive them.

# Numbers

Integers are unbounded and are told apart from numbers with a fraction or an
exponent, which are binary. What is no number and the infinite values are
among the latter.

# Fields

The fields of an object keep the order in which they were first given, and
each name stands once.

# What a value amounts to

Null, false, zero and whatever is empty count as nothing (`isVoid`). Values
are the same if they are equal as numbers, texts, arrays or objects,
whatever the spelling of a number and the order of the fields (`same`); a
truth value counts as a number there.
-/
import Spreadsheet.Binary64.Round
import Spreadsheet.Entries

namespace Spreadsheet

/-- A JSON value. -/
inductive Json where
  | null
  | bool (value : Bool)
  | integer (value : Int)
  | real (value : Binary64)
  | string (value : Text)
  | array (items : List Json)
  | object (fields : List (Text × Json))
deriving Inhabited

namespace Json

-- ====================================================== fields

/-- The value of an object under a name; null where there is none. -/
def get (json : Json) (name : Text) : Json :=
  match json with
  | object fields => (Entries.find? fields name).getD null
  | _ => null

-- ====================================================== what a value amounts to

/-- Is the value null, false, zero, or an empty text, array or
object? -/
def isVoid : Json → Bool
  | null => true
  | bool value => !value
  | integer value => value == 0
  | real value => value.isZero
  | string value => value.isEmpty
  | array items => items.isEmpty
  | object fields => fields.isEmpty

/-- The name of the kind of a value, as error messages give it. -/
def kindName : Json → String
  | null => "NoneType"
  | bool _ => "bool"
  | integer _ => "int"
  | real _ => "float"
  | string _ => "str"
  | array _ => "list"
  | object _ => "dict"

/-- The number of units of a value that counts as a number: a boolean
counts as zero or one. -/
def units? : Json → Option Int
  | bool value => some (if value then Binary64.unitsPerOne else 0)
  | integer value => some (value * Binary64.unitsPerOne)
  | real x@(.finite ..) => some x.units
  | _ => none

/-- Is the value a number that is none? -/
def isNan : Json → Bool
  | real x => x.isNan
  | _ => false

mutual

/-- Are two values the same? Numbers are compared by value, whatever
their kind, and the order of the fields of an object does not matter.
What is no number is the same as nothing when it stands alone, but as
itself inside an array or an object. -/
def same : Json → Json → Bool
  | null, null => true
  | string s, string t => s == t
  | array xs, array ys => sameItems xs ys
  | object fs, object gs => fs.length == gs.length && sameFields fs gs
  | real (.infinite m), real (.infinite n) => m == n
  | x, y =>
    match x.units?, y.units? with
    | some m, some n => m == n
    | _, _ => false

/-- Are two lists the same, item by item? -/
def sameItems : List Json → List Json → Bool
  | [], [] => true
  | x :: xs, y :: ys => (x.isNan && y.isNan || same x y) && sameItems xs ys
  | _, _ => false

/-- Does every field of the first list stand in the second with the same
value? -/
def sameFields : List (Text × Json) → List (Text × Json) → Bool
  | [], _ => true
  | (name, x) :: fs, gs =>
    (match Entries.find? gs name with
      | some y => x.isNan && y.isNan || same x y
      | none => false) && sameFields fs gs

end

end Json

end Spreadsheet
