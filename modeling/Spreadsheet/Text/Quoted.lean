/-
Quoted texts, the form in which a message names a piece of its input.

# The quote

The quote is the apostrophe, unless the text holds an apostrophe and no
double quote.

# Escapes

The quote and the backslash get a backslash in front, tab, line feed and
carriage return their letter, and what has no visible form its number in
two, four or eight hexadecimal digits. Everything else stands for itself, so
a quoted text can be read at a glance and tells its original.
-/
import Spreadsheet.Text.Printable

namespace Spreadsheet.Text

/-- The last `width` hexadecimal digits of a number, in lower case. -/
def hexDigits (width n : Nat) : List Char :=
  let digits := Nat.toDigits 16 n
  List.replicate (width - digits.length) '0' ++ digits

/-- The quote that encloses a text. -/
def quoteFor (text : Text) : Char :=
  if text.contains (.char '\'') && !text.contains (.char '"') then '"' else '\''

/-- The number of a code point in hexadecimal digits, after a letter
that tells how many. -/
def escapeCode (n : Nat) : List Char :=
  if n < 0x100 then '\\' :: 'x' :: hexDigits 2 n
  else if n < 0x10000 then '\\' :: 'u' :: hexDigits 4 n
  else '\\' :: 'U' :: hexDigits 8 n

/-- A code point as it stands between quotes. -/
def escapePoint (quote : Char) (c : CodePoint) : Text :=
  if c = quote || c = '\\' then ['\\', c]
  else if c = '\t' then ['\\', 't']
  else if c = '\n' then ['\\', 'n']
  else if c = '\r' then ['\\', 'r']
  else if isPrintable c then [c]
  else ofChars (escapeCode c.code)

/-- A text between quotes. -/
def quoted (text : Text) : Text :=
  let quote := quoteFor text
  .char quote :: text.flatMap (escapePoint quote) ++ [.char quote]

end Spreadsheet.Text
