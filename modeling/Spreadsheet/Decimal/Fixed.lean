/-
A binary number written with a fixed number of decimal places.

# One rounding

The number is taken exactly and rounded once, to the nearest multiple of the
last place; a tie goes away from zero. Since the number is exact, a tie is
one of the number itself and not of its shortest digits.

# The sign and the digits

The sign stays on a result of zero, so a small negative number is written
with a minus sign and nothing but zeros. There is a limit to the digits of
the result, and a longer one is refused.
-/
import Spreadsheet.Decimal.Layout

namespace Spreadsheet.Decimal

/-- The integer nearest to `num / den`, the greater one of two. -/
def nearestUp (num den : Nat) : Nat :=
  (2 * num + den) / (2 * den)

/-- The digits of a number of `10 ^ -places`, with a point if there are
places. -/
def fixedDigits (places count : Nat) : List Char :=
  let digits := padLeft (places + 1) (Nat.toDigits 10 count)
  let whole := digits.take (digits.length - places)
  if places = 0 then whole else whole ++ '.' :: digits.drop (digits.length - places)

/-- The most digits that a number with fixed places may have. -/
def maxFixedDigits : Nat := 1000

/-- A finite number with the given number of places, if it has not too
many digits. The sign stays on a result of zero. -/
def fixed? (places : Nat) (x : Binary64) : Option (List Char) :=
  let count := nearestUp (x.magnitude * Nat.pow 10 places) Binary64.unitsPerOne
  if count < Nat.pow 10 maxFixedDigits then some (signed x.isNegative (fixedDigits places count))
  else none

end Spreadsheet.Decimal
