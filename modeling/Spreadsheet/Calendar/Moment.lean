/-
Moments: a day of the Gregorian calendar and a time of that day.

# Days

Days are counted from the first of January of year 1, which is a Monday. The
day of the week, the weeks of a year by three ways of counting, and the
seconds since 1970 all follow from that count and the day of the year.

# Weeks

A week belongs to the year that its Thursday is in (`isoWeek`), so the first
days of January may belong to the year before, and the last of December to
the one after. The other two ways count the Sundays or the Mondays of the
year so far.

# Reading

A moment is given as a text such as `2024-03-05T14:07:09.000125`. The time
of day and its fraction may be missing, and are zero then.
-/

namespace Spreadsheet

/-- A day and a time of day, without a time zone. -/
structure Moment where
  year : Nat
  month : Nat
  day : Nat
  hour : Nat
  minute : Nat
  second : Nat
  microsecond : Nat
deriving DecidableEq, Repr, Inhabited

namespace Moment

/-- Has the year a 29th of February? -/
def isLeap (year : Nat) : Bool :=
  year % 4 == 0 && (year % 100 != 0 || year % 400 == 0)

/-- The number of days before each month of a year that is not a leap
year. -/
def daysBeforeMonth : List Nat :=
  [0, 31, 59, 90, 120, 151, 181, 212, 243, 273, 304, 334]

/-- The day of the year, from 1. -/
def dayOfYear (m : Moment) : Nat :=
  daysBeforeMonth.getD (m.month - 1) 0 + m.day
    + (if isLeap m.year && decide (2 < m.month) then 1 else 0)

/-- The number of days before a year. -/
def daysBeforeYear (year : Nat) : Nat :=
  let y := year - 1
  365 * y + y / 4 - y / 100 + y / 400

/-- The day of the week, from 0 for Monday. -/
def weekday (m : Moment) : Nat :=
  (daysBeforeYear m.year + m.dayOfYear + 6) % 7

/-- The number of Sundays so far in the year. -/
def sundayWeek (m : Moment) : Nat :=
  (m.dayOfYear + 6 - (m.weekday + 1) % 7) / 7

/-- The number of Mondays so far in the year. -/
def mondayWeek (m : Moment) : Nat :=
  (m.dayOfYear + 6 - m.weekday) / 7

/-- Does a year have 53 weeks? It does if it starts on a Thursday, or on
a Wednesday and is a leap year. -/
def hasLongYear (year : Nat) : Bool :=
  let first := (daysBeforeYear year + 7) % 7
  first == 3 || (first == 2 && isLeap year)

/-- The year and number of the week, where the first week is the one
with the first Thursday. -/
def isoWeek (m : Moment) : Nat × Nat :=
  let week := (m.dayOfYear + 9 - m.weekday) / 7
  if week = 0 then (m.year - 1, if hasLongYear (m.year - 1) then 53 else 52)
  else if week = 53 ∧ !hasLongYear m.year then (m.year + 1, 1)
  else (m.year, week)

/-- The number of seconds since the start of 1970, by the clock of the
moment. -/
def unixSeconds (m : Moment) : Int :=
  let days : Int := daysBeforeYear m.year + m.dayOfYear - 1 - daysBeforeYear 1970
  ((days * 24 + m.hour) * 60 + m.minute) * 60 + m.second

-- ====================================================== written moments

/-- The number of a run of digits of a fixed width in front of a text,
and the rest. -/
def takeNumber? (width : Nat) (cs : List Char) : Option (Nat × List Char) :=
  let digits := cs.take width
  if digits.length = width ∧ digits.all Char.isDigit then
    some (Nat.ofDigitChars 10 digits 0, cs.drop width)
  else none

/-- A character in front of a number of two digits: the number and the
rest, or zero where the text has ended. -/
def takePart (mark : Char) (cs : List Char) : Nat × List Char :=
  match cs with
  | c :: rest => if c = mark then (takeNumber? 2 rest).getD (0, cs) else (0, cs)
  | [] => (0, [])

/-- The microseconds of a fraction of a second. -/
def takeMicroseconds : List Char → Nat
  | '.' :: digits =>
    Nat.ofDigitChars 10 ((digits.takeWhile Char.isDigit ++ List.replicate 6 '0').take 6) 0
  | _ => 0

/-- The moment that a text such as `2024-03-05T14:07:09.000125`
names. -/
def parse? (text : String) : Option Moment := do
  let (year, rest) ← takeNumber? 4 text.toList
  let (month, rest) ← takeNumber? 2 (rest.drop 1)
  let (day, rest) ← takeNumber? 2 (rest.drop 1)
  let (hour, rest) := (takeNumber? 2 (rest.drop 1)).getD (0, [])
  let (minute, rest) := takePart ':' rest
  let (second, rest) := takePart ':' rest
  return ⟨year, month, day, hour, minute, second, takeMicroseconds rest⟩

end Moment

end Spreadsheet
