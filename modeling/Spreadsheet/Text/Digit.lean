/-
Decimal digits of every script.

# Zeros

The decimal digits of a script stand in ten consecutive code points, so the
table holds the zero of each script and the value of a digit is its distance
from that zero.

# Where they count

Numerals may be written in the digits of any script, or of several. The rows
of references and the numbers of JSON may not: these ask for the figures 0
to 9.
-/
import Spreadsheet.Text.Basic

namespace Spreadsheet.Text

/-- The zeros of the scripts that have decimal digits (Unicode 14). -/
def digitZeros : List Nat :=
  [48, 1632, 1776, 1984, 2406, 2534, 2662, 2790, 2918, 3046, 3174, 3302, 3430, 3558, 3664,
   3792, 3872, 4160, 4240, 6112, 6160, 6470, 6608, 6784, 6800, 6992, 7088, 7232, 7248, 42528,
   43216, 43264, 43472, 43504, 43600, 44016, 65296, 66720, 68912, 69734, 69872, 69942, 70096,
   70384, 70736, 70864, 71248, 71360, 71472, 71904, 72016, 72784, 73040, 73120, 92768, 92864,
   93008, 120782, 120792, 120802, 120812, 120822, 123200, 123632, 125264, 130032]

/-- The value of a decimal digit of any script. -/
def digitValue? (c : CodePoint) : Option Nat :=
  (digitZeros.find? fun z => decide (z ≤ c.code) && decide (c.code < z + 10)).map (c.code - ·)

/-- Is the character a decimal digit of some script? -/
def isDigit (c : CodePoint) : Bool :=
  (digitValue? c).isSome

/-- The value of a digit, zero for any other code point. -/
def digitValue (c : CodePoint) : Nat :=
  (digitValue? c).getD 0

end Spreadsheet.Text
