/-
Ranges of code points, the form in which the character tables are kept.

A table is a list of closed ranges of numbers. A code point is in the table
when its number is in one of them; nothing is assumed about their order, and
they may overlap. A table can therefore be written down as it is published,
and what is known of it can be checked range by range.
-/
import Spreadsheet.Text.Basic

namespace Spreadsheet.Text

/-- A list of closed ranges of code points. -/
abbrev CodeRanges := List (Nat × Nat)

/-- A code point belongs to a table when one of its ranges holds the
number. -/
def CodeRanges.has (ranges : CodeRanges) (c : CodePoint) : Bool :=
  ranges.any fun r => decide (r.1 ≤ c.code) && decide (c.code ≤ r.2)

end Spreadsheet.Text
