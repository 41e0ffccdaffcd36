/-
The fewest decimal digits that read back as a given binary number.

# The search

For one digit, two digits and so on, the two neighbours of the number on the
grid of that many digits are tried. The first grid with a neighbour that
reads back gives the digits; of two such neighbours the nearer is taken, and
of two equally near the one with an even last digit.

# Its end

The exact expansion of a number is finite, so the search ends: every number
is a point of the grid of 10^-1074. The fuel is the number of grids down to
that one. Zeros at the end of the digits found are stripped.

# Reading back

Whether a neighbour reads back is asked of the very function that reads
decimals, so what is found reads back by the way in which it was found.
-/
import Spreadsheet.Binary64.Round

namespace Spreadsheet.Decimal

/-- A positive decimal: `coefficient * 10 ^ exponent`. -/
structure Scaled where
  coefficient : Nat
  exponent : Int
deriving DecidableEq, Inhabited

namespace Scaled

/-- The decimal digits of the coefficient. -/
def digits (s : Scaled) : List Char :=
  Nat.toDigits 10 s.coefficient

/-- The exponent when a point stands after the first digit. -/
def leading (s : Scaled) : Int :=
  s.exponent + s.digits.length - 1

/-- The same value with at most `fuel` zeros fewer at the end of the
coefficient. -/
def stripZerosFrom (s : Scaled) : Nat → Scaled
  | 0 => s
  | fuel + 1 =>
    if s.coefficient ≠ 0 ∧ s.coefficient % 10 = 0 then
      stripZerosFrom ⟨s.coefficient / 10, s.exponent + 1⟩ fuel
    else s

/-- The same value without zeros at the end of the coefficient. -/
def stripZeros (s : Scaled) : Scaled :=
  s.stripZerosFrom s.digits.length

end Scaled

namespace Shortest

/-- The number of digits before the point of `num / den`; below one,
minus the number of zeros that follow the point. -/
def decade (num den : Nat) : Int :=
  if den ≤ num then (Nat.toDigits 10 (num / den)).length
  else 1 - ((Nat.toDigits 10 ((den - 1) / num)).length : Int)

/-- `num / den` over `10 ^ exponent`, again as a fraction of natural
numbers. -/
def rescale (num den : Nat) (exponent : Int) : Nat × Nat :=
  if 0 ≤ exponent then (num, den * Nat.pow 10 exponent.toNat)
  else (num * Nat.pow 10 (-exponent).toNat, den)

/-- The neighbour on a grid that reads back as `x`, where `num / den` is
the magnitude of `x` and the points of the grid are the multiples of
`10 ^ exponent`. -/
def onGrid (x : Binary64) (num den : Nat) (exponent : Int) : Option Scaled :=
  let (n, d) := rescale num den exponent
  let below := n / d
  let twice := 2 * (n % d)
  let readsBack (c : Nat) : Bool := Binary64.ofDecimal x.isNegative c exponent == x
  match readsBack below, readsBack (below + 1) with
  | false, false => none
  | true, false => some ⟨below, exponent⟩
  | false, true => some ⟨below + 1, exponent⟩
  | true, true =>
    if twice < d || (twice == d && below % 2 == 0) then some ⟨below, exponent⟩
    else some ⟨below + 1, exponent⟩

/-- The first grid with a neighbour that reads back, from `exponent`
downwards. -/
def search (x : Binary64) (num den : Nat) (exponent : Int) : Nat → Scaled
  | 0 => ⟨0, 0⟩
  | fuel + 1 =>
    match onGrid x num den exponent with
    | some s => s
    | none => search x num den (exponent - 1) fuel

end Shortest

/-- The shortest decimal that reads back as a finite number other than
zero.

Every finite number is a multiple of 10^-1074, so the search ends on
that grid at the latest. -/
def shortest (x : Binary64) : Scaled :=
  let start := Shortest.decade x.magnitude Binary64.unitsPerOne - 1
  (Shortest.search x x.magnitude Binary64.unitsPerOne start (start + 1075).toNat).stripZeros

end Spreadsheet.Decimal
