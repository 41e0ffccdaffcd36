/-
From the text of an expression to its tokens.

# Pieces

At every position the kinds of pieces are tried in a fixed order, and the
first that matches takes its longest match: blanks, strings, ranges,
numbers, names, comparisons, operators, parentheses and commas. Ranges come
before numbers and names because their corners look like either.

A match is given as its length. No kind matches the empty text, so every
piece takes at least one code point, and the pieces in order are the text.

# Tokens

A piece that is not blank is a token, with the position where it starts. A
text that comes to a place where no kind matches has no tokens; the fault
names the character there.

The recursion is on the text, one code point at a time, and passes over what
a piece took. So it is structural although the pieces have any length.
-/
import Spreadsheet.Decimal.Numeral
import Spreadsheet.Fault
import Spreadsheet.Formula.Token
import Spreadsheet.Reference
import Spreadsheet.Text.Blank

namespace Spreadsheet.Lexer

open Text (isBlank)

-- ====================================================== character classes

/-- Is the character a letter of the basic alphabet, in either case? -/
def isLetter (c : CodePoint) : Bool :=
  c.within 'A' 'Z' || c.within 'a' 'z'

/-- Is the character a letter of the basic alphabet or one of the
figures 0 to 9? -/
def isAlphanumeric (c : CodePoint) : Bool :=
  isLetter c || Reference.isFigure c

/-- Can the character start a name? -/
def startsName (c : CodePoint) : Bool := isLetter c || c = '_'

/-- Can the character stand inside a name? -/
def inName (c : CodePoint) : Bool := isAlphanumeric c || c = '_' || c = '.'

-- ====================================================== strings

/-- The length of a string in double quotes after its opening quote,
where `place` code points are passed already.

A quote that is written twice belongs to the string. If no closing quote
follows, the string closes at the first half of the last such pair;
`last` is the length up to there. -/
def closingQuote (place : Nat) (last : Option Nat) : Text → Option Nat
  | [] => last
  | [.char '"'] => some (place + 1)
  | .char '"' :: c :: cs =>
    if c = '"' then closingQuote (place + 2) (some (place + 1)) cs else some (place + 1)
  | _ :: cs => closingQuote (place + 1) last cs

/-- The length of a string literal in front of a text. -/
def stringLength? : Text → Option Nat
  | .char '"' :: cs => (closingQuote 0 none cs).map (· + 1)
  | .char '\'' :: cs =>
    if cs.contains (.char '\'') then some ((cs.takeWhile (· ≠ .char '\'')).length + 2) else none
  | _ => none

/-- The text inside double quotes with every pair of quotes made one. -/
def undouble : Text → Text
  | .char '"' :: .char '"' :: cs => '"' :: undouble cs
  | c :: cs => c :: undouble cs
  | [] => []

/-- The text that a string literal stands for. -/
def unquote (literal : Text) : Text :=
  match literal with
  | .char '"' :: body => undouble body.dropLast
  | _ :: body => body.dropLast
  | [] => []

-- ====================================================== ranges

/-- The length of a range in front of a text: two runs of letters and
figures, either of which may be empty, around a colon with blanks.

The second run may not go on as a name or a call. If it does and blanks
stand after the colon, the range ends before the last of them. -/
def rangeLength? (cs : Text) : Option Nat :=
  let left := cs.takeWhile isAlphanumeric
  let rest := cs.dropWhile isAlphanumeric
  let before := rest.takeWhile isBlank
  match rest.dropWhile isBlank with
  | .char ':' :: rest =>
    let upToColon := left.length + before.length + 1
    let after := rest.takeWhile isBlank
    let rest := rest.dropWhile isBlank
    let right := rest.takeWhile isAlphanumeric
    match rest.dropWhile isAlphanumeric with
    | c :: _ =>
      if c = '_' || c = '.' || c = '(' then
        if after.isEmpty then none else some (upToColon + (after.length - 1))
      else some (upToColon + after.length + right.length)
    | [] => some (upToColon + after.length + right.length)
  | _ => none

-- ====================================================== the other kinds

/-- The length of a run of blanks. -/
def blankLength? (cs : Text) : Option Nat :=
  match cs.takeWhile isBlank with
  | [] => none
  | run => some run.length

/-- The length of a number. -/
def numberLength? (cs : Text) : Option Nat :=
  (Decimal.Numeral.scan cs).map fun found => found.1.text.length

/-- The length of a name. -/
def nameLength? : Text → Option Nat
  | c :: cs => if startsName c then some ((cs.takeWhile inName).length + 1) else none
  | [] => none

/-- The comparison in front of a text; one of two characters goes before
one of one. -/
def comparator? : Text → Option Comparator
  | .char '>' :: .char '=' :: _ => some .atLeast
  | .char '<' :: .char '=' :: _ => some .atMost
  | .char '=' :: .char '=' :: _ => some .doubleEqual
  | .char '!' :: .char '=' :: _ => some .unequal
  | .char '<' :: .char '>' :: _ => some .angleUnequal
  | .char '>' :: _ => some .greater
  | .char '<' :: _ => some .less
  | .char '=' :: _ => some .equal
  | _ => none

/-- The operator, parenthesis or comma that a character is. -/
def symbol? : Text → Option Lexeme
  | .char '+' :: _ => some (.operator .add)
  | .char '-' :: _ => some (.operator .sub)
  | .char '*' :: _ => some (.operator .mul)
  | .char '/' :: _ => some (.operator .div)
  | .char '(' :: _ => some .openParen
  | .char ')' :: _ => some .closeParen
  | .char ',' :: _ => some .comma
  | _ => none

-- ====================================================== pieces

/-- The token a name is: a reference if it reads as one and no
parenthesis follows it. -/
def nameLexeme (name rest : Text) : Lexeme :=
  let name := Text.upper name
  let called := (Text.dropBlanks rest).head? = some (.char '(')
  if (Reference.split? name).isSome && !called then .reference name else .name name

/-- The first piece of a text: its token, none for blanks, and its
length. -/
def piece? (cs : Text) : Option (Option Lexeme × Nat) :=
  if let some n := blankLength? cs then some (none, n)
  else if let some n := stringLength? cs then
    some (some (.string (unquote (cs.take n))), n)
  else if let some n := rangeLength? cs then
    some (some (.range (Text.upper ((cs.take n).filter (!isBlank ·)))), n)
  else if let some n := numberLength? cs then
    some (some (.number (cs.take n)), n)
  else if let some n := nameLength? cs then
    some (some (nameLexeme (cs.take n) (cs.drop n)), n)
  else if let some op := comparator? cs then
    some (some (.comparison op), op.text.length)
  else (symbol? cs).map fun lexeme => (some lexeme, 1)

/-- The tokens of the text from `position` on, once `skip` code points
are passed over. -/
def tokensFrom (position : Nat) : Nat → Text → Except SyntaxFault (List Token)
  | _, [] => .ok []
  | skip + 1, _ :: cs => tokensFrom (position + 1) skip cs
  | 0, c :: cs =>
    match piece? (c :: cs) with
    | none => .error (.unexpectedCharacter c position)
    | some (none, n) => tokensFrom (position + 1) (n - 1) cs
    | some (some lexeme, n) => do
      let rest ← tokensFrom (position + 1) (n - 1) cs
      return ⟨lexeme, position⟩ :: rest

/-- The tokens of an expression. -/
def tokens (expression : Text) : Except SyntaxFault (List Token) :=
  tokensFrom 0 0 expression

end Spreadsheet.Lexer
