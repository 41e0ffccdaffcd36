/-
Blank characters, and what it means to trim a text.

# The set

A character is blank when it has the Unicode property White_Space or is one
of the four information separators U+001C to U+001F. Formulas, numbers and
cell names all skip the same set; only the margins of a number that is
converted as a whole are narrower (Number/Reading.lean).

# Trimming

Blanks are dropped in front of a text and at its end, and nowhere else. A
text of nothing but blanks is trimmed to nothing.
-/
import Spreadsheet.Text.CodeRange

namespace Spreadsheet.Text

/-- The blank characters. -/
def blankRanges : CodeRanges :=
  [(9, 13), (28, 32), (133, 133), (160, 160), (5760, 5760), (8192, 8202), (8232, 8233),
   (8239, 8239), (8287, 8287), (12288, 12288)]

/-- Is the character blank? -/
def isBlank (c : CodePoint) : Bool :=
  blankRanges.has c

/-- What is left after the blanks in front. -/
def dropBlanks (text : Text) : Text :=
  text.dropWhile isBlank

/-- A text without the blanks at either end. -/
def trim (text : Text) : Text :=
  (dropBlanks (dropBlanks text).reverse).reverse

end Spreadsheet.Text
