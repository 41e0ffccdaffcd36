/-
The JSON text of a value, on one line.

# Strings

A surrogate is no character, so inside a string it is written as an escape;
the JSON text itself is characters only. The quote, the backslash and
control characters are escaped as well, and every other character stands for
itself.

# Numbers

Numbers that are finite are written so that they read back as the same
number. The others have no form in JSON and are written as words, which the
reader takes.
-/
import Spreadsheet.Json.Plain

namespace Spreadsheet.Json

/-- An escape of four hexadecimal digits. -/
def hexEscapeOf (n : Nat) : List Char :=
  '\\' :: 'u' :: Text.hexDigits 4 n

/-- A character inside a JSON string. -/
def stringChar (c : Char) : List Char :=
  if c = '"' || c = '\\' then ['\\', c]
  else if c = '\n' then ['\\', 'n']
  else if c = '\r' then ['\\', 'r']
  else if c = '\t' then ['\\', 't']
  else if c.toNat < 32 || c.toNat = 127 then hexEscapeOf c.toNat
  else [c]

/-- A code point inside a JSON string. -/
def stringPoint : CodePoint → List Char
  | .char c => stringChar c
  | c@(.surrogate _) => hexEscapeOf c.code

/-- A JSON string. -/
def stringChars (s : Text) : List Char :=
  '"' :: s.flatMap stringPoint ++ ['"']

/-- The text of a binary number; what is not finite is named. -/
def realChars : Binary64 → List Char
  | .nan => "NaN".toList
  | .infinite negative => Decimal.signed negative "Infinity".toList
  | x => Decimal.literal x

mutual

/-- The JSON text of a value. -/
def chars : Json → List Char
  | null => "null".toList
  | bool true => "true".toList
  | bool false => "false".toList
  | integer n => Decimal.integer n
  | real x => realChars x
  | string s => stringChars s
  | array items => '[' :: charsOfItems items ++ [']']
  | object fields => '\x7b' :: charsOfFields fields ++ ['\x7d']

/-- The items of an array, with commas between. -/
def charsOfItems : List Json → List Char
  | [] => []
  | [x] => chars x
  | x :: xs => chars x ++ ',' :: ' ' :: charsOfItems xs

/-- The fields of an object, with commas between. -/
def charsOfFields : List (Text × Json) → List Char
  | [] => []
  | [(name, x)] => stringChars name ++ ':' :: ' ' :: chars x
  | (name, x) :: fs => stringChars name ++ ':' :: ' ' :: chars x ++ ',' :: ' ' :: charsOfFields fs

end

/-- The JSON text of a value. -/
def print (json : Json) : String :=
  String.ofList json.chars

end Spreadsheet.Json
