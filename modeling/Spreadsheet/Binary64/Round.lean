/-
Rounding of exact quotients to the nearest binary number.

# The quotient

The quotient is given in units as a fraction of natural numbers. Its whole
part fixes the binade, and so the spacing of the numbers around it; the
quotient is then rounded to the nearest multiple of that spacing, a tie
going to the even one.

# Out of range

Rounding may reach the first number of the next binade, which is spelled
with another exponent then (`assemble`). A quotient beyond the largest
finite number, by half a spacing or more, becomes infinite; one of less than
half a unit becomes zero.

# Decimals

A decimal is a quotient with a power of ten above or below. Numerals may
have exponents of any length, so what is far out of range is settled first,
by the exponent and the bits of the coefficient, and no large power is built
for it (`ofDecimal`).
-/
import Spreadsheet.Binary64.Basic

namespace Spreadsheet.Binary64

/-- The integer nearest to `num / den`, the even one of two. -/
def nearestEven (num den : Nat) : Nat :=
  let q := num / den
  let r := num % den
  if 2 * r < den then q else if den < 2 * r then q + 1 else q + q % 2

/-- The exponent of the numbers around a magnitude whose whole part is
`units`. -/
def binade (units : Nat) : Nat :=
  units.log2 - 52

/-- The number with a magnitude of `significand * 2 ^ exponent` units,
where the significand may have been rounded up to the next binade and
the exponent may be out of range. -/
def assemble (negative : Bool) (significand exponent : Nat) : Binary64 :=
  if h : Canonical significand exponent then
    .finite negative significand exponent h
  else if h : significand = 0x20000000000000 ∧ exponent < 2045 then
    .finite negative 0x10000000000000 (exponent + 1)
      ⟨by decide, h.2, .inr (Nat.le_refl _)⟩
  else
    .infinite negative

/-- The number nearest to `num / den` units with the given sign. -/
def ofQuotient (negative : Bool) (num den : Nat) : Binary64 :=
  let exponent := binade (num / den)
  assemble negative (nearestEven num (den * Nat.pow 2 exponent)) exponent

/-- The number nearest to a whole number of units; `zeroSign` is the
sign of a zero. -/
def ofUnits (zeroSign : Bool) (units : Int) : Binary64 :=
  ofQuotient (if units = 0 then zeroSign else decide (units < 0)) units.natAbs 1

/-- The number nearest to an integer. -/
def ofInt (n : Int) : Binary64 :=
  ofUnits false (n * unitsPerOne)

/-- The number nearest to `coefficient * 10 ^ exponent`.

Beyond an exponent of 400 every positive value is infinite, and one that
is below half a unit is zero, so no power of ten need be built there. -/
def ofDecimal (negative : Bool) (coefficient : Nat) (exponent : Int) : Binary64 :=
  if coefficient = 0 then
    zero negative
  else if 0 ≤ exponent then
    if 400 < exponent then .infinite negative
    else ofQuotient negative (coefficient * Nat.pow 10 exponent.toNat * unitsPerOne) 1
  else
    let places := (-exponent).toNat
    if coefficient.log2 + 1076 ≤ 3 * places then zero negative
    else ofQuotient negative (coefficient * unitsPerOne) (Nat.pow 10 places)

end Spreadsheet.Binary64
