/-
The sum of a list of binary numbers, in a fixed grouping.

# Why the grouping is fixed

Additions round, so the grouping is part of the result: other groupings of
the same numbers may give other sums.

# The grouping

Fewer than eight numbers are added from left to right. Up to 128 are spread
over eight running sums, which are then joined pairwise, and what is left
over is added at the end. A longer list is cut in two near the middle, at a
multiple of eight, and the sums of the halves are added.

The recursion is on the length of the list. A half is never empty, because a
list that is cut has more than 128 numbers.
-/
import Spreadsheet.Binary64.Arithmetic

namespace Spreadsheet.Binary64

/-- The sum from left to right, from a start. -/
def sumFrom (start : Binary64) (xs : List Binary64) : Binary64 :=
  xs.foldl (· + ·) start

/-- Eight running sums. -/
structure Lanes where
  (l0 l1 l2 l3 l4 l5 l6 l7 : Binary64)

namespace Lanes

/-- The running sums joined pairwise. -/
def join (l : Lanes) : Binary64 :=
  ((l.l0 + l.l1) + (l.l2 + l.l3)) + ((l.l4 + l.l5) + (l.l6 + l.l7))

/-- The running sums after as many blocks of eight as there are, joined,
and then what is left over from left to right. -/
def absorb (l : Lanes) : List Binary64 → Binary64
  | x0 :: x1 :: x2 :: x3 :: x4 :: x5 :: x6 :: x7 :: xs =>
    absorb ⟨l.l0 + x0, l.l1 + x1, l.l2 + x2, l.l3 + x3,
      l.l4 + x4, l.l5 + x5, l.l6 + x6, l.l7 + x7⟩ xs
  | xs => sumFrom l.join xs

end Lanes

/-- The sum of at most 128 numbers. -/
def sumBlock : List Binary64 → Binary64
  | x0 :: x1 :: x2 :: x3 :: x4 :: x5 :: x6 :: x7 :: xs =>
    Lanes.absorb ⟨x0, x1, x2, x3, x4, x5, x6, x7⟩ xs
  | xs => sumFrom (zero false) xs

/-- The place where a list of more than 128 numbers is cut. -/
def cutAt (size : Nat) : Nat :=
  size / 2 - size / 2 % 8

/-- The sum of a list of numbers. -/
def sum (xs : List Binary64) : Binary64 :=
  if xs.length ≤ 128 then
    sumBlock xs
  else
    sum (xs.take (cutAt xs.length)) + sum (xs.drop (cutAt xs.length))
termination_by xs.length
decreasing_by
  all_goals simp only [List.length_take, List.length_drop, cutAt]; omega

end Spreadsheet.Binary64
