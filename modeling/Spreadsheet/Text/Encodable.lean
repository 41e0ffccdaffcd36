/-
Texts that can be encoded as UTF-8, which has no form for a surrogate.

A text that holds a surrogate cannot be sent, nor can it be the pattern of a
date. The fault names the place of the first surrogates that stand together,
from the first to the last of them; what stands behind these is not looked
at.
-/
import Spreadsheet.Text.Quoted

namespace Spreadsheet.Text

/-- Where a text cannot be encoded: at the surrogates that stand
together from a position on. -/
structure Unencodable where
  position : Nat
  surrogates : Text
deriving DecidableEq, Repr

/-- The first place where a text cannot be encoded. -/
def unencodable? (text : Text) : Option Unencodable :=
  let before := text.takeWhile (!·.isSurrogate)
  match (text.dropWhile (!·.isSurrogate)).takeWhile (·.isSurrogate) with
  | [] => none
  | surrogates => some ⟨before.length, surrogates⟩

/-- The string of a text that can be encoded. -/
def encodable (text : Text) : Except Unencodable String :=
  match unencodable? text with
  | some fault => .error fault
  | none => .ok text.toScalars

/-- The wording about a text that cannot be encoded. -/
def Unencodable.message (fault : Unencodable) : Text :=
  let first := fault.position
  let last := fault.position + fault.surrogates.length - 1
  match fault.surrogates with
  | [c] =>
    "'utf-8' codec can't encode character '" ++ ofChars (escapeCode c.code)
      ++ s!"' in position {first}: surrogates not allowed"
  | _ => s!"'utf-8' codec can't encode characters in position {first}-{last}: "
      ++ "surrogates not allowed"

end Spreadsheet.Text
