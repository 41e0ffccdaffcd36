/-
Reading a JSON text.

# Stopping early

The reader takes code points off the front of a text. When it stops early it
says why, and how many of them were left at the place it blames; the place
is turned into a line and a column only for the message.

# What is read

Besides the standard it reads `NaN`, `Infinity` and `-Infinity`. Of repeated
names the last value counts, in the place of the first. Two escapes in a row
that name the halves of a surrogate pair are one character; a half that
stands alone is a surrogate of the text. An integer with too many digits is
refused, as it is everywhere.

# Fuel

The fuel bounds the nesting. A value takes a code point at least before it
goes into another one, so the length of the text is enough of it.
-/
import Spreadsheet.Decimal.Numeral
import Spreadsheet.Json.Basic

namespace Spreadsheet.Json

-- ====================================================== why a text is refused

/-- Why a text is no JSON. -/
inductive Cause where
  | value
  | propertyName
  | colon
  | comma
  | extraData
  | unterminatedString
  | controlCharacter
  | escape
  | hexEscape
deriving DecidableEq

/-- Why reading stopped, and how many code points were left at the place
to blame. -/
inductive Stop where
  | malformed (cause : Cause) (left : Nat)
  | tooManyDigits (count : Nat)

-- ====================================================== blanks and strings

/-- What is left after the blanks that JSON allows between tokens. -/
def skipBlanks (cs : Text) : Text :=
  cs.dropWhile fun c => c = ' ' || c = '\t' || c = '\n' || c = '\r'

/-- The value of a hexadecimal digit. -/
def hexValue? (c : CodePoint) : Option Nat :=
  if c.within '0' '9' then some (c.code - '0'.toNat)
  else if c.within 'a' 'f' then some (c.code - 'a'.toNat + 10)
  else if c.within 'A' 'F' then some (c.code - 'A'.toNat + 10)
  else none

/-- The value of four hexadecimal digits. -/
def hexQuad? (a b c d : CodePoint) : Option Nat := do
  let high := (← hexValue? a) * 16 + (← hexValue? b)
  let low := (← hexValue? c) * 16 + (← hexValue? d)
  return high * 256 + low

/-- The character that a letter stands for after a backslash. -/
def simpleEscape? (c : CodePoint) : Option CodePoint :=
  if c = '"' || c = '\\' || c = '/' then some c
  else if c = 'b' then some '\x08'
  else if c = 'f' then some '\x0c'
  else if c = 'n' then some '\n'
  else if c = 'r' then some '\r'
  else if c = 't' then some '\t'
  else none

/-- The code point that an escape of four hexadecimal digits stands for,
after its `u`, and the number of code points it takes, the `u` included.
Two escapes that make a surrogate pair are one character; something must
follow the last digit. -/
def hexEscape (cs : Text) : Except Stop (CodePoint × Nat) :=
  match cs with
  | a :: b :: c :: d :: next :: rest =>
    match hexQuad? a b c d with
    | none => .error (.malformed .hexEscape (cs.length + 1))
    | some high =>
      match CodePoint.isHighHalf high, next, rest with
      | true, .char '\\', .char 'u' :: e :: f :: g :: h :: _ :: _ =>
        match hexQuad? e f g h with
        | none => .error (.malformed .hexEscape rest.length)
        | some low =>
          if CodePoint.isLowHalf low then .ok (.ofNat (CodePoint.joinHalves high low), 11)
          else .ok (.ofNat high, 5)
      | _, _, _ => .ok (.ofNat high, 5)
  | _ => .error (.malformed .hexEscape (cs.length + 1))

/-- The code point that an escape stands for, after its backslash, and
the number of code points it takes. -/
def escape (start : Nat) (cs : Text) : Except Stop (CodePoint × Nat) :=
  match cs with
  | [] => .error (.malformed .unterminatedString start)
  | .char 'u' :: rest => hexEscape rest
  | c :: _ =>
    match simpleEscape? c with
    | some e => .ok (e, 1)
    | none => .error (.malformed .escape (cs.length + 1))

/-- The text of a string after its opening quote, and the rest: what was
found before, latest first, and what follows once `skip` code points are
passed over. `start` is the number of code points left at the opening
quote. -/
def stringBody (start : Nat) (found : Text) : Nat → Text → Except Stop (Text × Text)
  | _, [] => .error (.malformed .unterminatedString start)
  | skip + 1, _ :: cs => stringBody start found skip cs
  | 0, c :: cs =>
    if c = '"' then .ok (found.reverse, cs)
    else if c = '\\' then
      match escape start cs with
      | .ok (e, size) => stringBody start (e :: found) size cs
      | .error stop => .error stop
    else if c.code < 32 then .error (.malformed .controlCharacter (cs.length + 1))
    else stringBody start (c :: found) 0 cs

-- ====================================================== numbers

def isAsciiDigit (c : CodePoint) : Bool := c.within '0' '9'

/-- The digits of a whole number without needless zeros in front, and
the rest. -/
def wholeDigits (cs : Text) : Option (Text × Text) :=
  match cs with
  | .char '0' :: rest => some ("0", rest)
  | _ =>
    match cs.takeWhile isAsciiDigit with
    | [] => none
    | digits => some (digits, cs.dropWhile isAsciiDigit)

/-- The digits of a fraction, if a point and a digit are there, and the
rest. -/
def fractionDigits (cs : Text) : Text × Text :=
  match cs with
  | .char '.' :: rest =>
    match rest.takeWhile isAsciiDigit with
    | [] => ([], cs)
    | digits => (digits, rest.dropWhile isAsciiDigit)
  | _ => ([], cs)

/-- The power of ten, if its mark and a digit are there, and the
rest. -/
def powerOfTen (cs : Text) : Option Int × Text :=
  match cs with
  | c :: rest =>
    if c = 'e' || c = 'E' then
      let (negative, rest) := Decimal.takeSign rest
      match rest.takeWhile isAsciiDigit with
      | [] => (none, cs)
      | digits =>
        let n : Int := Decimal.valueOf digits
        (some (if negative then -n else n), rest.dropWhile isAsciiDigit)
    else (none, cs)
  | [] => (none, cs)

/-- A number in front of a text, and the rest. -/
def number (cs : Text) : Except Stop (Json × Text) :=
  let (negative, body) :=
    match cs with
    | .char '-' :: rest => (true, rest)
    | _ => (false, cs)
  match wholeDigits body with
  | none => .error (.malformed .value cs.length)
  | some (whole, rest) =>
    let (fraction, rest) := fractionDigits rest
    let (power, rest) := powerOfTen rest
    if fraction.isEmpty && power.isNone then
      match Decimal.natOf whole with
      | .error count => .error (.tooManyDigits count)
      | .ok n => .ok (.integer (if negative then -(n : Int) else n), rest)
    else
      .ok (.real (Binary64.ofDecimal negative (Decimal.valueOf (whole ++ fraction))
        (power.getD 0 - fraction.length)), rest)

-- ====================================================== values

/-- The rest after a word, if the text starts with it. -/
def afterWord? (word cs : Text) : Option Text :=
  if word.isPrefixOf cs then some (cs.drop word.length) else none

/-- The values that are single words. -/
def words : List (Text × Json) :=
  [("null", null), ("true", bool true), ("false", bool false), ("NaN", real .nan),
    ("Infinity", real (.infinite false)), ("-Infinity", real (.infinite true))]

/-- A value that is a single word, and the rest. -/
def word? (cs : Text) : Option (Json × Text) :=
  words.findSome? fun (word, json) => (afterWord? word cs).map (json, ·)

mutual

/-- A value in front of a text, and the rest. The fuel bounds the
nesting. -/
def value : Nat → Text → Except Stop (Json × Text)
  | 0, cs => .error (.malformed .value cs.length)
  | fuel + 1, cs =>
    match cs with
    | .char '"' :: rest =>
      do
        let (s, rest) ← stringBody cs.length [] 0 rest
        return (string s, rest)
    | .char '\x7b' :: rest =>
      match skipBlanks rest with
      | .char '\x7d' :: rest => .ok (object [], rest)
      | rest => members fuel [] rest
    | .char '[' :: rest =>
      match skipBlanks rest with
      | .char ']' :: rest => .ok (array [], rest)
      | rest => elements fuel [] rest
    | _ =>
      match word? cs with
      | some found => .ok found
      | none => number cs

/-- The members of an object from a name on, after those found
before. -/
def members : Nat → Entries Json → Text → Except Stop (Json × Text)
  | 0, _, cs => .error (.malformed .value cs.length)
  | fuel + 1, found, cs =>
    match cs with
    | .char '"' :: rest =>
      do
        let (name, rest) ← stringBody cs.length [] 0 rest
        match skipBlanks rest with
        | .char ':' :: rest =>
          let (x, rest) ← value fuel (skipBlanks rest)
          let found := Entries.put found name x
          match skipBlanks rest with
          | .char '\x7d' :: rest => return (object found, rest)
          | .char ',' :: rest => members fuel found (skipBlanks rest)
          | rest => throw (.malformed .comma rest.length)
        | rest => throw (.malformed .colon rest.length)
    | _ => .error (.malformed .propertyName cs.length)

/-- The items of an array from a value on, after those found before,
latest first. -/
def elements : Nat → List Json → Text → Except Stop (Json × Text)
  | 0, _, cs => .error (.malformed .value cs.length)
  | fuel + 1, found, cs =>
    do
      let (x, rest) ← value fuel cs
      match skipBlanks rest with
      | .char ']' :: rest => return (array (x :: found).reverse, rest)
      | .char ',' :: rest => elements fuel (x :: found) (skipBlanks rest)
      | rest => throw (.malformed .comma rest.length)

end

/-- The value that a whole text stands for. -/
def parse (cs : Text) : Except Stop Json := do
  let (json, rest) ← value (cs.length + 1) (skipBlanks cs)
  match skipBlanks rest with
  | [] => return json
  | rest => throw (.malformed .extraData rest.length)

-- ====================================================== messages

/-- What a cause is called. -/
def Cause.message : Cause → String
  | value => "Expecting value"
  | propertyName => "Expecting property name enclosed in double quotes"
  | colon => "Expecting ':' delimiter"
  | comma => "Expecting ',' delimiter"
  | extraData => "Extra data"
  | unterminatedString => "Unterminated string starting at"
  | controlCharacter => "Invalid control character at"
  | escape => "Invalid \\escape"
  | hexEscape => "Invalid \\uXXXX escape"

/-- The message for a text that was refused: the cause and its line,
column and offset. -/
def Stop.message (text : Text) : Stop → String
  | malformed cause left =>
    let before := text.take (text.length - left)
    let line := before.count (.char '\n') + 1
    let column := (before.reverse.takeWhile (· ≠ .char '\n')).length + 1
    s!"{cause.message}: line {line} column {column} (char {before.length})"
  | tooManyDigits count => Decimal.tooManyDigitsMessage count

end Spreadsheet.Json
