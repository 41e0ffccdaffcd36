/-
Arithmetic of binary numbers: the exact result, rounded once.

# Exact first

Sums and products of finite numbers are exact in units before they are
rounded, and a quotient is a fraction of two natural numbers. So every
operation is one exact step and one rounding, and what is known of rounding
is all that is needed to reason about it.

# Signs and limits

A sum of zero is negative only when both terms are; a product or a quotient
of zero has the sign that the signs of its operands make. Infinite operands
follow the usual limits, and an operation without a limit is no number.

# Division by zero

Division by zero has no result at all, not even an infinite one: the caller
says what that means. For a formula it is a fault of its own.
-/
import Spreadsheet.Binary64.Round

namespace Spreadsheet.Binary64

/-- The number with the other sign. -/
def neg : Binary64 → Binary64
  | nan => nan
  | infinite negative => infinite (!negative)
  | finite negative significand exponent canonical =>
    finite (!negative) significand exponent canonical

/-- The rounded sum. A sum of zero is negative only when both terms
are. -/
def add : Binary64 → Binary64 → Binary64
  | nan, _ => nan
  | _, nan => nan
  | infinite m, infinite n => if m = n then infinite m else nan
  | infinite m, finite .. => infinite m
  | finite .., infinite n => infinite n
  | x@(finite m ..), y@(finite n ..) => ofUnits (m && n) (x.units + y.units)

/-- The rounded difference. -/
def sub (x y : Binary64) : Binary64 :=
  x.add y.neg

/-- The rounded product. -/
def mul (x y : Binary64) : Binary64 :=
  let negative := x.isNegative != y.isNegative
  match x, y with
  | nan, _ => nan
  | _, nan => nan
  | infinite _, _ => if y.isZero then nan else infinite negative
  | _, infinite _ => if x.isZero then nan else infinite negative
  | finite .., finite .. => ofQuotient negative (x.magnitude * y.magnitude) unitsPerOne

/-- The rounded quotient, if the divisor is not zero. -/
def div? (x y : Binary64) : Option Binary64 :=
  let negative := x.isNegative != y.isNegative
  if y.isZero then
    none
  else
    match x, y with
    | nan, _ => nan
    | _, nan => nan
    | infinite _, infinite _ => nan
    | infinite _, _ => infinite negative
    | _, infinite _ => zero negative
    | finite .., finite .. => ofQuotient negative (x.magnitude * unitsPerOne) y.magnitude

/-- The quotient by a positive count. -/
def divNat (x : Binary64) (n : Nat) : Binary64 :=
  (x.div? (ofInt n)).getD nan

instance : Add Binary64 := ⟨add⟩
instance : Sub Binary64 := ⟨sub⟩
instance : Mul Binary64 := ⟨mul⟩
instance : Neg Binary64 := ⟨neg⟩

end Spreadsheet.Binary64
