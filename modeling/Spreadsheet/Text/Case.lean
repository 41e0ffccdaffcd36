/-
Upper and lower case of a text, by the full case mappings of Unicode.

# Single characters

One character may become several: the sharp s is SS in upper case. The
letters of the basic alphabet go by themselves, and all other characters by
the tables (`Text.CaseTable`). A surrogate has no case.

# Neighbours

The only mapping that looks at its neighbours is that of the capital sigma,
which is a final sigma at the end of a word. So the upper case of a text is
put together from that of its characters. The lower case is made from the
left, with a look at what stands before and behind each sigma.
-/
import Spreadsheet.Text.CaseTable

namespace Spreadsheet.Text

-- ====================================================== single characters

/-- The code point a run sends `n` to, if the run covers it. -/
def CaseRun.target? (run : CaseRun) (n : Nat) : Option Nat :=
  let (first, count, step, target) := run
  if first ≤ n ∧ (n - first) % step = 0 ∧ (n - first) / step < count then
    some (target + (n - first))
  else
    none

/-- A character mapped by a list of expansions, else by a list of runs,
else left as it is. -/
def mappedChar (expansions : List (Nat × List Nat)) (runs : List CaseRun) (c : Char) :
    List Char :=
  match expansions.lookup c.toNat with
  | some ns => ns.map Char.ofNat
  | none => [((runs.findSome? (·.target? c.toNat)).map Char.ofNat).getD c]

/-- The upper case of a character. -/
def upperChar (c : Char) : List Char :=
  if c.toNat < 128 then [c.toUpper] else mappedChar upperExpansions upperRuns c

/-- The lower case of a character that stands alone. -/
def lowerChar (c : Char) : List Char :=
  if c.toNat < 128 then [c.toLower] else mappedChar lowerExpansions lowerRuns c

/-- A mapping of characters on code points; it leaves a surrogate as it
is. -/
def onPoint (mapping : Char → List Char) : CodePoint → Text
  | .char c => ofChars (mapping c)
  | .surrogate n => [.surrogate n]

-- ====================================================== texts

/-- The upper case of a text. -/
def upper (text : Text) : Text :=
  text.flatMap (onPoint upperChar)

/-- Does a cased character follow, past those that are passed over? -/
def casedFollows (text : Text) : Bool :=
  match text.dropWhile caseIgnorableRanges.has with
  | [] => false
  | c :: _ => casedRanges.has c

/-- The lower case of a text, where `inWord` says whether a cased
character stands before it, past those that are passed over.

A capital sigma is final when a cased character stands before it and
none follows. -/
def lowerFrom (inWord : Bool) : Text → Text
  | [] => []
  | c :: rest =>
    let here : Text :=
      if c = 'Σ' then [if inWord && !casedFollows rest then 'ς' else 'σ']
      else onPoint lowerChar c
    here ++ lowerFrom (if caseIgnorableRanges.has c then inWord else casedRanges.has c) rest

/-- The lower case of a text. -/
def lower (text : Text) : Text :=
  lowerFrom false text

end Spreadsheet.Text
