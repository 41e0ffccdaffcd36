/-
The text a cell shows for a number.

# In full, or in the fewest digits

A number without a fraction is written out in full below 10^21. Every other
number is written in the fewest digits that read back, around a point unless
that would take very many zeros. Either way no sign is left on a zero.

# Rounded numbers

A number that is rounded to some places is written with exactly these
places, and the sign does stay on a zero there (`rounded?`). What is not
finite is shown by its name in both forms.
-/
import Spreadsheet.Decimal.Fixed

namespace Spreadsheet.Number

/-- The characters shown for a number. -/
def displayChars : Binary64 → List Char
  | .nan => "NaN".toList
  | .infinite negative => Decimal.signed negative "Infinity".toList
  | x@(.finite negative ..) =>
    if x.isIntegral ∧ x.magnitude < Nat.pow 10 21 * Binary64.unitsPerOne then
      Decimal.integer (x.units.tdiv Binary64.unitsPerOne)
    else
      Decimal.signed negative (Decimal.Layout.display.write (Decimal.shortest x))

/-- The text shown for a number. -/
def display (x : Binary64) : Text :=
  Text.ofChars (displayChars x)

/-- The text shown for a number rounded to a number of decimal places,
if it is not too long. -/
def rounded? (places : Nat) : Binary64 → Option Text
  | x@(.finite ..) => (Decimal.fixed? places x).map Text.ofChars
  | x => some (display x)

end Spreadsheet.Number
