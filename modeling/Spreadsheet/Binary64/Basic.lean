/-
Binary floating-point numbers of 64 bits.

# Units

A finite number is a sign and a magnitude of `significand * 2 ^ exponent`
units, where the unit is 2^-1074, the least positive number. Counted in
units every magnitude is a natural number, so all that is exact can be said
without fractions.

# One spelling

A magnitude has one canonical spelling: the significand fills 53 bits, or
the exponent is zero. A number carries the proof that it is spelled so, and
two finite numbers are the same just when their parts are.

# Order

The two zeros differ in their sign alone and are equal as numbers. What is
no number has no place in the order, so a comparison with it holds only if
it asks for inequality. There is one such value here, for no result tells
several of them apart.
-/

namespace Spreadsheet

/-- `significand * 2 ^ exponent` units is the one spelling of its
magnitude: a significand has 53 bits, the first of which is missing in
the least binade only. -/
def Binary64.Canonical (significand exponent : Nat) : Prop :=
  significand < 0x20000000000000 ∧ exponent ≤ 2045 ∧
    (exponent = 0 ∨ 0x10000000000000 ≤ significand)

instance (significand exponent : Nat) : Decidable (Binary64.Canonical significand exponent) :=
  inferInstanceAs (Decidable (_ ∧ _ ∧ _))

/-- A binary floating-point number of 64 bits; all that is no number is
the one `nan`. -/
inductive Binary64 where
  | nan
  | infinite (negative : Bool)
  | finite (negative : Bool) (significand exponent : Nat)
      (canonical : Binary64.Canonical significand exponent)
deriving DecidableEq

namespace Binary64

/-- The number of units in one. -/
def unitsPerOne : Nat := Nat.pow 2 1074

/-- Positive or negative zero. -/
def zero (negative : Bool) : Binary64 :=
  .finite negative 0 0 ⟨by decide, by decide, .inl rfl⟩

instance : Inhabited Binary64 := ⟨zero false⟩

/-- The number one. -/
def one : Binary64 :=
  .finite false 0x10000000000000 1022 ⟨by decide, by decide, .inr (Nat.le_refl _)⟩

-- ====================================================== what a number is

def isNan : Binary64 → Bool
  | nan => true
  | _ => false

def isInfinite : Binary64 → Bool
  | infinite _ => true
  | _ => false

/-- Either zero. -/
def isZero : Binary64 → Bool
  | finite _ significand _ _ => significand == 0
  | _ => false

/-- The magnitude of a finite number in units. -/
def magnitude : Binary64 → Nat
  | finite _ significand exponent _ => significand * Nat.pow 2 exponent
  | _ => 0

/-- Does the number carry a minus sign? -/
def isNegative : Binary64 → Bool
  | nan => false
  | infinite negative => negative
  | finite negative _ _ _ => negative

/-- A finite number in units, with its sign. -/
def units (x : Binary64) : Int :=
  if x.isNegative then -(x.magnitude : Int) else x.magnitude

/-- Does a finite number have no fraction? -/
def isIntegral (x : Binary64) : Bool :=
  x.magnitude % unitsPerOne == 0

/-- The integer part of a finite number: what stands before the point,
with the sign. -/
def truncate? : Binary64 → Option Int
  | x@(finite ..) => some (x.units.tdiv unitsPerOne)
  | _ => none

-- ====================================================== order

/-- The place of a number among the others; what is no number has none,
and the two zeros share theirs. -/
def compare? : Binary64 → Binary64 → Option Ordering
  | nan, _ => none
  | _, nan => none
  | infinite m, infinite n => some (compare n m)
  | infinite m, finite .. => some (if m then .lt else .gt)
  | finite .., infinite n => some (if n then .gt else .lt)
  | x@(finite ..), y@(finite ..) => some (compare x.units y.units)

def lt (x y : Binary64) : Bool := x.compare? y == some .lt

def gt (x y : Binary64) : Bool := x.compare? y == some .gt

def eq (x y : Binary64) : Bool := x.compare? y == some .eq

def le (x y : Binary64) : Bool := x.lt y || x.eq y

def ge (x y : Binary64) : Bool := x.gt y || x.eq y

end Binary64

end Spreadsheet
