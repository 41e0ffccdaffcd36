/-
The text of a number, put together from the text that names it.

# The named text

A number without a fraction is written out in full below 10^21. For every
other one there is a text already, the one that messages name it by
(`Decimal.literal`), and a result takes its digits over. That text has an
exponent below 10^-4 and from 10^16 on, with two digits at least; a result
has one only below 10^-6 and from 10^21 on, as short as it can be.

# The splice

So a named text without an exponent is shown as it is. One with an exponent
is taken apart at the letter. If the exponent is one that a result does not
show, the digits are written around a point instead; if not, the exponent is
written again, with its sign and without zeros in front.

`displayChars` says the same in one step, by a layout of its own. The two are
proved to write the same text.
-/
import Spreadsheet.Number.Display

namespace Spreadsheet.Number

open Decimal (signed valueOf)

-- ====================================================== parts of a text

/-- The integer that an exponent with its sign stands for. -/
def exponentOf : List Char → Int
  | '-' :: digits => -(valueOf (Text.ofChars digits) : Int)
  | '+' :: digits => valueOf (Text.ofChars digits)
  | digits => valueOf (Text.ofChars digits)

/-- The digits of a mantissa, without its sign and its point. -/
def mantissaDigits (mantissa : List Char) : List Char :=
  mantissa.filter Char.isDigit

/-- How many digits a mantissa has behind its point. -/
def mantissaPlaces (mantissa : List Char) : Nat :=
  (mantissa.dropWhile (· ≠ '.')).length - 1

/-- A mantissa and an exponent, written around a point. -/
def aroundPoint (mantissa : List Char) (exponent : Int) : List Char :=
  signed (mantissa.head? == some '-') <| Decimal.Layout.display.positional
    ⟨valueOf (Text.ofChars (mantissaDigits mantissa)), exponent - mantissaPlaces mantissa⟩

-- ====================================================== the splice

/-- A named text as a result shows it. -/
def splice (text : List Char) : List Char :=
  let mantissa := text.takeWhile (· ≠ 'e')
  match text.dropWhile (· ≠ 'e') with
  | [] => text
  | _ :: power =>
    let exponent := exponentOf power
    if -7 < exponent ∧ exponent < 21 then aroundPoint mantissa exponent
    else mantissa ++ 'e' :: (if 0 < exponent then '+' else '-')
      :: Nat.toDigits 10 exponent.natAbs

/-- The characters shown for a number, by way of the text that names
it. -/
def splicedChars : Binary64 → List Char
  | .nan => "NaN".toList
  | .infinite negative => signed negative "Infinity".toList
  | x@(.finite ..) =>
    if x.isIntegral ∧ x.magnitude < Nat.pow 10 21 * Binary64.unitsPerOne then
      Decimal.integer (x.units.tdiv Binary64.unitsPerOne)
    else
      splice (Decimal.literal x)

end Spreadsheet.Number
