/-
The functions a formula can call.

# Families

Functions that are used in the same way are one family: those over the cells
of a range, those of one text, and those that read the clock. What is said
of a family holds of each of its members, which differ in what they make of
their argument. ROUND, CONCAT, IF and VLOOKUP have each a form of their own.

# Names

A function is found by its name in upper case, which is the case that names
are read in. Messages give the same name.
-/
import Spreadsheet.Text.Basic

namespace Spreadsheet

/-- The functions over the cells of one range. -/
inductive Aggregate where
  | sum
  | average
  | min
  | max
  | count
  | countA
deriving DecidableEq, Repr

/-- The functions of one text. -/
inductive TextFunction where
  | len
  | upper
  | lower
deriving DecidableEq, Repr

/-- The functions that read the clock. -/
inductive ClockFunction where
  | today
  | now
deriving DecidableEq, Repr

/-- The functions a formula can call. -/
inductive Function where
  | aggregate (function : Aggregate)
  | round
  | concat
  | text (function : TextFunction)
  | clock (function : ClockFunction)
  | cond
  | lookup
deriving DecidableEq, Repr

namespace Function

/-- All functions with their names. -/
def names : List (Text × Function) :=
  [("SUM", aggregate .sum), ("AVERAGE", aggregate .average), ("MIN", aggregate .min),
   ("MAX", aggregate .max), ("COUNT", aggregate .count), ("COUNTA", aggregate .countA),
   ("ROUND", round), ("CONCAT", concat), ("LEN", text .len), ("UPPER", text .upper),
   ("LOWER", text .lower), ("TODAY", clock .today), ("NOW", clock .now), ("IF", cond),
   ("VLOOKUP", lookup)]

/-- The function of a name, which is in upper case. -/
def ofName? (name : Text) : Option Function :=
  names.lookup name

/-- The name of a function. -/
def name : Function → String
  | aggregate .sum => "SUM"
  | aggregate .average => "AVERAGE"
  | aggregate .min => "MIN"
  | aggregate .max => "MAX"
  | aggregate .count => "COUNT"
  | aggregate .countA => "COUNTA"
  | round => "ROUND"
  | concat => "CONCAT"
  | text .len => "LEN"
  | text .upper => "UPPER"
  | text .lower => "LOWER"
  | clock .today => "TODAY"
  | clock .now => "NOW"
  | cond => "IF"
  | lookup => "VLOOKUP"

end Function

end Spreadsheet
