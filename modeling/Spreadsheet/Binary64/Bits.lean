/-
The interchange form of a binary number: a word of 64 bits.

# The fields

The word holds the sign, eleven bits of exponent and 52 of significand. In
units the fields line up: a finite magnitude of `m * 2 ^ e` units has
`e * 2 ^ 52 + m` below the sign, whether the leading bit of `m` is there or
not. So no case is made of subnormal numbers when a word is written.

# Reading a word

The greatest exponent field is that of the infinite values and of what is no
number; all words of the latter are read as one. Every other word is a
finite number, and its parts are canonical by the widths of the fields.
-/
import Spreadsheet.Binary64.Basic

namespace Spreadsheet.Binary64

/-- The word that stands for a number. -/
def toBits : Binary64 → Nat
  | nan => 0x7ff8000000000000
  | infinite negative => (if negative then 0x8000000000000000 else 0) + 2047 * 0x10000000000000
  | finite negative significand exponent _ =>
    (if negative then 0x8000000000000000 else 0) + exponent * 0x10000000000000 + significand

/-- The finite number with a given exponent field and fraction; the
least field has no leading bit. -/
def ofFields (negative : Bool) (field fraction : Nat) (hfield : field < 2047)
    (hfraction : fraction < 0x10000000000000) : Binary64 :=
  if h : field = 0 then
    .finite negative fraction 0 ⟨by omega, by decide, .inl rfl⟩
  else
    .finite negative (0x10000000000000 + fraction) (field - 1)
      ⟨by omega, by omega, .inr (by omega)⟩

/-- The number a word stands for. -/
def ofBits (word : Nat) : Binary64 :=
  let negative := decide (0x8000000000000000 ≤ word % 0x10000000000000000)
  if h : word / 0x10000000000000 % 0x800 = 2047 then
    if word % 0x10000000000000 = 0 then .infinite negative else .nan
  else
    ofFields negative (word / 0x10000000000000 % 0x800) (word % 0x10000000000000)
      (by omega) (by omega)

end Spreadsheet.Binary64
