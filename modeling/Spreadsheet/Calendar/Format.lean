/-
Moments written by a pattern.

# Directives

In a pattern a percent sign and a letter stand for a part of the moment.
Between the two may stand flags, a width and a modifier. Flags say how a
part is filled up to its width and in which case it is written: an underline
for blanks, a zero for zeros, a hyphen for no zeros, a caret for upper case
and a number sign for the other case. The modifiers E and O ask for other
forms of some parts, which are the usual ones here.

What names no part stands for itself, and so does every other character.

# What is written first

The microseconds and the time zone, which is absent, are put into the
pattern before all else. What they leave is read again, so it may become
part of a directive.

# The room

The text of a pattern has so much room and no more; a text that would fill
it is not written at all. A pattern ends at its first null character.
-/
import Spreadsheet.Calendar.Part
import Spreadsheet.Text.Case

namespace Spreadsheet.Calendar

-- ====================================================== styles

/-- What fills up a part. -/
inductive Fill where
  | blanks
  | zeros
  /-- Blanks up to the width of the style, but nothing up to the digits of
  a number. -/
  | bare
deriving DecidableEq, Repr

/-- What asks for another form of a part. -/
inductive Modifier where
  | e
  | o
deriving DecidableEq, Repr

/-- What stands between a percent sign and its letter. -/
structure Style where
  fill : Option Fill
  upper : Bool
  otherCase : Bool
  width : Nat
  modifier : Option Modifier
deriving DecidableEq, Repr

/-- The filling that a flag asks for. -/
def Fill.ofFlag? : CodePoint → Option Fill
  | .char '_' => some .blanks
  | .char '0' => some .zeros
  | .char '-' => some .bare
  | _ => none

/-- Is the character a flag? -/
def isFlag (c : CodePoint) : Bool :=
  (Fill.ofFlag? c).isSome || c = '^' || c = '#'

/-- A modifier in front of a text, and the rest. -/
def takeModifier : Text → Option Modifier × Text
  | .char 'E' :: rest => (some .e, rest)
  | .char 'O' :: rest => (some .o, rest)
  | rest => (none, rest)

/-- The style in front of a text, the number of its characters, and the
rest. The last of the flags that ask for a filling holds. -/
def takeStyle (text : Text) : Style × Nat × Text :=
  let flags := text.takeWhile isFlag
  let rest := text.dropWhile isFlag
  let digits := rest.takeWhile (·.within '0' '9')
  let (modifier, rest) := takeModifier (rest.dropWhile (·.within '0' '9'))
  let style :=
    { fill := flags.reverse.findSome? Fill.ofFlag?
      upper := flags.contains '^'
      otherCase := flags.contains '#'
      width := Decimal.valueOf digits
      modifier }
  (style, flags.length + digits.length + modifier.toList.length, rest)

/-- Does a letter name no part with a modifier? -/
def Modifier.refuses (modifier : Modifier) (letter : Char) : Bool :=
  ['%', 'a', 'A', 'D', 'F'].contains letter ||
    match modifier with
    | .e => "bhBdeHIkljMmSUVgGWw".toList.contains letter
    | .o => "cxXY".toList.contains letter

-- ====================================================== pieces

/-- A text with what fills it up in front. -/
structure Piece where
  filler : Char
  count : Nat
  text : Text
deriving DecidableEq, Repr

/-- The number of characters of a piece. -/
def Piece.size (piece : Piece) : Nat :=
  piece.count + piece.text.length

def Piece.toText (piece : Piece) : Text :=
  List.replicate piece.count (.char piece.filler) ++ piece.text

/-- A text that nothing fills up. -/
def Piece.just (text : Text) : Piece :=
  ⟨' ', 0, text⟩

namespace Style

/-- A text filled up to the width of a style. -/
def fillUp (style : Style) (text : Text) : Piece :=
  ⟨if style.fill = some .zeros then '0' else ' ', style.width - text.length, text⟩

/-- A word filled up, in upper case if the style asks for it. Where it
asks for the other case, that is the case `other` writes. -/
def word (style : Style) (other : Char → Char) (cs : List Char) : Piece :=
  style.fillUp <| Text.ofChars <|
    if style.otherCase then cs.map other
    else if style.upper then cs.map Char.toUpper
    else cs

/-- A number filled up to a number of digits and to the width of a
style. -/
def number (style : Style) (fill : Fill) (digits value : Nat) : Piece :=
  let text := Nat.toDigits 10 value
  match fill with
  | .blanks => ⟨' ', max digits style.width - text.length, .ofChars text⟩
  | .zeros => ⟨'0', max digits style.width - text.length, .ofChars text⟩
  | .bare => style.fillUp (.ofChars text)

/-- A part in a style. -/
def write (style : Style) : Part → Piece
  | .number digits value => style.number (style.fill.getD .zeros) digits value
  | .spacedNumber digits value => style.number (style.fill.getD .blanks) digits value
  | .name cs => style.word Char.toUpper cs
  | .half cs => style.word Char.toLower cs
  | .lowerHalf cs => style.fillUp (Text.ofChars (cs.map Char.toLower))
  | .composed cs => { style with otherCase := false }.word id cs
  | .plain c => style.fillUp [.char c]
  | .zone => if style.fill = some .bare then .just [] else style.fillUp []
  | .omitted => .just []

/-- A character in upper case, if that is one character too. -/
def upperPoint (c : CodePoint) : CodePoint :=
  match Text.upper [c] with
  | [u] => u
  | _ => c

/-- A directive that names no part, as it stands in the pattern. -/
def asWritten (style : Style) (directive : Text) : Piece :=
  style.fillUp (if style.upper then directive.map upperPoint else directive)

end Style

/-- The part that a letter names in a style, if its modifier goes with
the letter. -/
def Style.part? (style : Style) (m : Moment) (letter : Char) : Option Part :=
  if style.modifier.any (·.refuses letter) then none else Calendar.part? m letter

/-- A directive that ends in a letter and names no part. Of one that
ends in a percent sign only that sign is left, and short names of months
take the other case even then. -/
def Style.writeUnnamed (style : Style) (directive : Text) (letter : Char) : Piece :=
  if letter = '%' then style.asWritten "%"
  else
    let upper := style.upper || (style.otherCase && (letter = 'b' || letter = 'h'))
    { style with upper }.asWritten directive

/-- The piece that a directive is, given the text after its percent
sign, and the number of characters it takes after that sign. -/
def directive (m : Moment) (text : Text) : Piece × Nat :=
  let (style, size, rest) := takeStyle text
  let written := .char '%' :: text.take (size + 1)
  match rest with
  | .char letter :: _ =>
    let piece :=
      match style.part? m letter with
      | some part => style.write part
      | none => style.writeUnnamed written letter
    (piece, size + 1)
  | _ => (style.asWritten written, size + min 1 rest.length)

-- ====================================================== patterns

/-- The microseconds and the absent time zone, which are written before
all else, so that what they leave may belong to a directive. -/
def resolveFirst (m : Moment) : Text → Text
  | .char '%' :: c :: rest =>
    if c = 'f' then zeroed 6 m.microsecond ++ resolveFirst m rest
    else if c = 'z' || c = 'Z' then resolveFirst m rest
    else '%' :: c :: resolveFirst m rest
  | c :: rest => c :: resolveFirst m rest
  | [] => []

/-- The pieces of a pattern, once `skip` characters are passed over. -/
def piecesFrom (m : Moment) : Nat → Text → List Piece
  | _, [] => []
  | skip + 1, _ :: rest => piecesFrom m skip rest
  | 0, .char '%' :: rest =>
    let (piece, size) := directive m rest
    piece :: piecesFrom m size rest
  | 0, c :: rest => .just [c] :: piecesFrom m 0 rest

/-- The room for the text of a pattern of so many characters: 1024
characters, doubled until there are 256 for each of the pattern. The
fuel bounds the doublings. -/
def roomFrom (size room : Nat) : Nat → Nat
  | 0 => room
  | fuel + 1 => if 256 * size ≤ room then room else roomFrom size (2 * room) fuel

/-- The room for the text of a pattern of so many characters. -/
def room (size : Nat) : Nat :=
  roomFrom size 1024 size

/-- The text of some pieces. One that leaves no room for more is not
written at all. -/
def joined (room : Nat) (pieces : List Piece) : Text :=
  if room ≤ (pieces.map Piece.size).foldr (· + ·) 0 then [] else pieces.flatMap Piece.toText

/-- A moment written by a pattern, which ends at its first null
character. -/
def format (m : Moment) (pattern : Text) : Text :=
  let resolved := resolveFirst m (pattern.takeWhile (· ≠ '\x00'))
  joined (room resolved.length) (piecesFrom m 0 resolved)

end Spreadsheet.Calendar
