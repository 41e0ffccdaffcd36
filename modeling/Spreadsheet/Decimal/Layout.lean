/-
The written form of a shortest decimal.

# Layouts

A layout says between which exponents the digits are written around a point,
how an exponent is written outside of them, and what marks a number without
a fraction. `display` is the layout of results, `literal` that of numbers
named in messages and of numbers that were given where a text is kept.

# Two ways to write a decimal

Around a point, the digits are filled up with zeros on the side where they
do not reach the point (`positional`). With an exponent, one digit stands
before the point and the others behind it; a single digit has no point
(`exponential`).

Both ways write the same decimal, and every text that is written here is a
numeral that can be read again.
-/
import Spreadsheet.Decimal.Shortest
import Spreadsheet.Decimal.Whole

namespace Spreadsheet.Decimal

/-- How a decimal is written. -/
structure Layout where
  /-- Exponents from here on are written around a point … -/
  least : Int
  /-- … up to here. -/
  most : Int
  /-- The least number of digits of a written exponent. -/
  exponentWidth : Nat
  /-- What follows a number without a fraction. -/
  wholeMark : List Char

/-- Results: an exponent only below 10^-6 and from 10^21 on, as short as
it can be. -/
def Layout.display : Layout := ⟨-6, 20, 1, []⟩

/-- Named numbers: an exponent of two digits or more below 10^-4 and
from 10^16 on, and a fraction in every number without one. -/
def Layout.literal : Layout := ⟨-4, 15, 2, ['.', '0']⟩

/-- Digits around a point. -/
def Layout.positional (layout : Layout) (s : Scaled) : List Char :=
  if 0 ≤ s.exponent then
    s.digits ++ List.replicate s.exponent.toNat '0' ++ layout.wholeMark
  else
    let places := (-s.exponent).toNat
    let digits := padLeft (places + 1) s.digits
    digits.take (digits.length - places) ++ '.' :: digits.drop (digits.length - places)

/-- One digit before the point, and the exponent. -/
def Layout.exponential (layout : Layout) (s : Scaled) : List Char :=
  let mantissa :=
    match s.digits with
    | first :: second :: rest => first :: '.' :: second :: rest
    | digits => digits
  let exponent := s.leading
  mantissa ++ 'e' :: (if exponent < 0 then '-' else '+')
    :: padLeft layout.exponentWidth (Nat.toDigits 10 exponent.natAbs)

/-- A positive decimal in a layout. -/
def Layout.write (layout : Layout) (s : Scaled) : List Char :=
  if layout.least ≤ s.leading ∧ s.leading ≤ layout.most then layout.positional s
  else layout.exponential s

/-- A binary number as messages name it. -/
def literal : Binary64 → List Char
  | .nan => ['n', 'a', 'n']
  | .infinite negative => signed negative ['i', 'n', 'f']
  | x@(.finite negative significand _ _) =>
    signed negative <|
      if significand = 0 then ['0', '.', '0'] else Layout.literal.write (shortest x)

end Spreadsheet.Decimal
