/-
Decimal numerals: digits with an optional point and an optional power of
ten.

# The form

A numeral is `12`, `12.`, `12.5` or `.5`, and may be followed by `e` or `E`,
an optional sign and digits. The digits are those of any script. A numeral
is kept piece by piece, as it is written.

# Scanning

`scan` splits the longest numeral off a text, `text` writes a numeral back,
and what `scan` takes away is what `text` gives. A mark without digits
behind it is no power of ten, and is left in the text.

# The value

A numeral stands for a decimal, which is rounded once to a binary number
(`toBinary64`). Signs in front of a numeral are no part of it; the readers
take them off first.
-/
import Spreadsheet.Binary64.Round
import Spreadsheet.Decimal.Whole

namespace Spreadsheet.Decimal

open Text (isDigit)

-- ====================================================== signs

/-- An optional sign in front: whether it is a minus, and the rest. -/
def takeSign : Text → Bool × Text
  | .char '+' :: rest => (false, rest)
  | .char '-' :: rest => (true, rest)
  | text => (false, text)

-- ====================================================== the power of ten

/-- The written power of ten: the mark `e` or `E`, an optional sign, and
digits. -/
structure Power where
  mark : CodePoint
  sign : Option CodePoint
  digits : Text
deriving DecidableEq

namespace Power

/-- The text of a power of ten. -/
def text (p : Power) : Text :=
  p.mark :: p.sign.toList ++ p.digits

/-- The exponent a power of ten stands for. -/
def value (p : Power) : Int :=
  if p.sign = some (.char '-') then -(valueOf p.digits : Int) else valueOf p.digits

/-- An optional sign in front, as it is written, and the rest. -/
def scanSign : Text → Option CodePoint × Text
  | .char '+' :: rest => (some '+', rest)
  | .char '-' :: rest => (some '-', rest)
  | text => (none, text)

/-- A power of ten in front, if its digits are there, and the rest. -/
def scan : Text → Option (Power × Text)
  | [] => none
  | c :: cs =>
    if c = 'e' || c = 'E' then
      let (sign, rest) := scanSign cs
      match rest.takeWhile isDigit with
      | [] => none
      | digits => some (⟨c, sign, digits⟩, rest.dropWhile isDigit)
    else
      none

end Power

-- ====================================================== numerals

/-- A decimal numeral, piece by piece. -/
structure Numeral where
  whole : Text
  point : Bool
  fraction : Text
  power : Option Power
deriving DecidableEq

namespace Numeral

/-- The text of a numeral. -/
def text (n : Numeral) : Text :=
  n.whole ++ (if n.point then [.char '.'] else []) ++ n.fraction
    ++ (n.power.map Power.text).getD []

/-- The digits before and after the point, and the rest. -/
def scanMantissa (text : Text) : Option (Text × Bool × Text × Text) :=
  let whole := text.takeWhile isDigit
  match text.dropWhile isDigit with
  | .char '.' :: rest =>
    let fraction := rest.takeWhile isDigit
    if whole.isEmpty && fraction.isEmpty then none
    else some (whole, true, fraction, rest.dropWhile isDigit)
  | rest => if whole.isEmpty then none else some (whole, false, [], rest)

/-- The longest numeral in front of a text, and the rest. -/
def scan (text : Text) : Option (Numeral × Text) :=
  match scanMantissa text with
  | none => none
  | some (whole, point, fraction, rest) =>
    match Power.scan rest with
    | none => some (⟨whole, point, fraction, none⟩, rest)
    | some (power, rest) => some (⟨whole, point, fraction, some power⟩, rest)

/-- The binary number nearest to a numeral, with the given sign. -/
def toBinary64 (negative : Bool) (n : Numeral) : Binary64 :=
  Binary64.ofDecimal negative (valueOf (n.whole ++ n.fraction))
    ((n.power.map Power.value).getD 0 - n.fraction.length)

end Numeral

end Spreadsheet.Decimal
