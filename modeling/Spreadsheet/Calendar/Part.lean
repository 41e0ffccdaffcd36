/-
The parts of a moment, each named by a letter.

# What a part is

A part is a number, a word or several parts put together. How it is filled
up and in which case it is written is left to the pattern that names it; so
a part says only what may be done to it, such as which case is the other one
of a word.

# The letters

`part?` is the whole table of letters. Several letters name one part, and
those that are not in it name none. The language of names and the order in
composed dates are fixed, and the time zone is absent. Years are written
without zeros in front.
-/
import Spreadsheet.Calendar.Moment
import Spreadsheet.Decimal.Whole

namespace Spreadsheet.Calendar

-- ====================================================== names

/-- The names of the days of the week, from Monday. -/
def dayNames : List String :=
  ["Monday", "Tuesday", "Wednesday", "Thursday", "Friday", "Saturday", "Sunday"]

/-- The names of the months. -/
def monthNames : List String :=
  ["January", "February", "March", "April", "May", "June", "July", "August", "September",
   "October", "November", "December"]

def dayName (m : Moment) : List Char :=
  (dayNames.getD m.weekday "").toList

def monthName (m : Moment) : List Char :=
  (monthNames.getD (m.month - 1) "").toList

/-- The mark of the half of a day. -/
def halfDay (m : Moment) : List Char :=
  if m.hour < 12 then ['A', 'M'] else ['P', 'M']

/-- The hour on a clock of twelve. -/
def twelveHour (hour : Nat) : Nat :=
  if hour % 12 = 0 then 12 else hour % 12

-- ====================================================== composed parts

/-- A number with zeros in front, up to a width. -/
def zeroed (width n : Nat) : List Char :=
  Decimal.padLeft width (Nat.toDigits 10 n)

/-- A number with blanks in front, up to two characters. -/
def spaced (n : Nat) : List Char :=
  let digits := Nat.toDigits 10 n
  List.replicate (2 - digits.length) ' ' ++ digits

/-- Hours and minutes. -/
def hourMinute (m : Moment) : List Char :=
  zeroed 2 m.hour ++ ':' :: zeroed 2 m.minute

/-- Hours, minutes and seconds. -/
def clock (m : Moment) : List Char :=
  hourMinute m ++ ':' :: zeroed 2 m.second

/-- The time on a clock of twelve. -/
def twelveClock (m : Moment) : List Char :=
  zeroed 2 (twelveHour m.hour) ++ ':' :: zeroed 2 m.minute ++ ':' :: zeroed 2 m.second
    ++ ' ' :: halfDay m

/-- Month, day and the last two digits of the year. -/
def slashedDate (m : Moment) : List Char :=
  zeroed 2 m.month ++ '/' :: zeroed 2 m.day ++ '/' :: zeroed 2 (m.year % 100)

/-- Year, month and day. -/
def hyphenedDate (m : Moment) : List Char :=
  Nat.toDigits 10 m.year ++ '-' :: zeroed 2 m.month ++ '-' :: zeroed 2 m.day

/-- Day and time in words and figures. -/
def fullDate (m : Moment) : List Char :=
  (dayName m).take 3 ++ ' ' :: (monthName m).take 3 ++ ' ' :: spaced m.day
    ++ ' ' :: clock m ++ ' ' :: Nat.toDigits 10 m.year

-- ====================================================== parts

/-- A part of a moment before it is filled up. -/
inductive Part where
  /-- A number of at least so many digits. -/
  | number (digits value : Nat)
  /-- A number with blanks in the place of zeros. -/
  | spacedNumber (digits value : Nat)
  /-- A word whose other case is upper case. -/
  | name (text : List Char)
  /-- A word whose other case is lower case. -/
  | half (text : List Char)
  /-- A word that is always in lower case. -/
  | lowerHalf (text : List Char)
  /-- Parts put together. -/
  | composed (text : List Char)
  /-- A character that has no case. -/
  | plain (c : Char)
  /-- The name of the time zone, which is absent; a hyphen leaves out its
  width too. -/
  | zone
  /-- What is left out, whatever its width. -/
  | omitted

/-- The part of a moment that a letter names. -/
def part? (m : Moment) : Char → Option Part
  | 'Y' => some (.number 1 m.year)
  | 'C' => some (.number 1 (m.year / 100))
  | 'y' => some (.number 2 (m.year % 100))
  | 'm' => some (.number 2 m.month)
  | 'd' => some (.number 2 m.day)
  | 'e' => some (.spacedNumber 2 m.day)
  | 'H' => some (.number 2 m.hour)
  | 'k' => some (.spacedNumber 2 m.hour)
  | 'I' => some (.number 2 (twelveHour m.hour))
  | 'l' => some (.spacedNumber 2 (twelveHour m.hour))
  | 'M' => some (.number 2 m.minute)
  | 'S' => some (.number 2 m.second)
  | 'p' => some (.half (halfDay m))
  | 'P' => some (.lowerHalf (halfDay m))
  | 'b' => some (.name ((monthName m).take 3))
  | 'h' => some (.name ((monthName m).take 3))
  | 'B' => some (.name (monthName m))
  | 'a' => some (.name ((dayName m).take 3))
  | 'A' => some (.name (dayName m))
  | 'w' => some (.number 1 ((m.weekday + 1) % 7))
  | 'u' => some (.number 1 (m.weekday + 1))
  | 'j' => some (.number 3 m.dayOfYear)
  | 'U' => some (.number 2 m.sundayWeek)
  | 'W' => some (.number 2 m.mondayWeek)
  | 'V' => some (.number 2 m.isoWeek.2)
  | 'G' => some (.number 1 m.isoWeek.1)
  | 'g' => some (.number 2 (m.isoWeek.1 % 100))
  | 's' => some (.composed (Decimal.integer m.unixSeconds))
  | 'D' => some (.composed (slashedDate m))
  | 'x' => some (.composed (slashedDate m))
  | 'F' => some (.composed (hyphenedDate m))
  | 'T' => some (.composed (clock m))
  | 'X' => some (.composed (clock m))
  | 'R' => some (.composed (hourMinute m))
  | 'r' => some (.composed (twelveClock m))
  | 'c' => some (.composed (fullDate m))
  | 'n' => some (.plain '\n')
  | 't' => some (.plain '\t')
  | '%' => some (.plain '%')
  | 'Z' => some .zone
  | 'z' => some .omitted
  | _ => none

end Spreadsheet.Calendar
