/-
Whole numbers written in decimal digits.

# The limit

A run of digits is turned into an integer only up to a fixed length, zeros
in front included; a longer one is refused, and the refusal names its length
(`natOf`). The value itself is defined for every run (`valueOf`), because a
numeral with a fraction or an exponent has no such limit.

# Writing

Integers are written in plain digits with a minus sign if they are negative,
and padded with zeros where a width is asked for.
-/
import Spreadsheet.Text.Digit

namespace Spreadsheet.Decimal

open Text (digitValue)

/-- The natural number that a run of digits stands for. -/
def valueOf (digits : Text) : Nat :=
  digits.foldl (fun n c => 10 * n + digitValue c) 0

/-- The longest run of digits that is turned into an integer. -/
def maxDigits : Nat := 4300

/-- The natural number of a run of digits, or the length of a run that
is too long. -/
def natOf (digits : Text) : Except Nat Nat :=
  if digits.length ≤ maxDigits then .ok (valueOf digits) else .error digits.length

/-- The message for a run of digits that is too long. -/
def tooManyDigitsMessage (count : Nat) : String :=
  s!"Exceeds the limit ({maxDigits} digits) for integer string conversion: "
    ++ s!"value has {count} digits; use sys.set_int_max_str_digits() to increase the limit"

/-- A sign in front of digits. -/
def signed (negative : Bool) (cs : List Char) : List Char :=
  if negative then '-' :: cs else cs

/-- Digits with zeros in front, up to a width. -/
def padLeft (width : Nat) (digits : List Char) : List Char :=
  List.replicate (width - digits.length) '0' ++ digits

/-- The decimal digits of an integer, with a minus sign if it is
negative. -/
def integer (n : Int) : List Char :=
  signed (decide (n < 0)) (Nat.toDigits 10 n.natAbs)

end Spreadsheet.Decimal
