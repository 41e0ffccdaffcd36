/-
The encoding of a request body.

# Telling encodings apart

A JSON text starts with two characters of the ASCII set, or is one alone, so
the null bytes among the first four tell the encodings apart. A mark of byte
order in front of UTF-8 is no part of the text.

# Wide units

Two units of 16 bits that are the halves of a surrogate pair are one
character; any other unit or code point may be a surrogate and is kept.
Bytes that are left over at the end, or a unit that is no code point, are a
fault that names its position.

# Where bodies come from

A body is given as a string and sent as UTF-8, so it is never at fault as
UTF-8. But a string with null characters in the right places is taken for
one of the wide encodings, and read anew.
-/
import Spreadsheet.Text.Basic

namespace Spreadsheet.Service

/-- An encoding, and for wide units whether the high byte comes
first. -/
inductive Encoding where
  | utf8
  | utf16 (big : Bool)
  | utf32 (big : Bool)
deriving DecidableEq, Repr

/-- Why bytes are no text. -/
inductive EncodingFault where
  | truncated (encoding : Encoding) (position : Nat) (bytes : List Nat)
  | outOfRange (encoding : Encoding) (position : Nat)

namespace Encoding

/-- The encoding of the bytes of a JSON text. -/
def detect : List Nat → Encoding
  | [0, _] => utf16 true
  | [_, 0] => utf16 false
  | 0 :: 0 :: _ :: _ :: _ => utf32 true
  | 0 :: _ :: _ :: _ :: _ => utf16 true
  | _ :: 0 :: 0 :: 0 :: _ => utf32 false
  | _ :: 0 :: _ :: _ :: _ => utf16 false
  | _ => utf8

def name : Encoding → String
  | utf8 => "utf-8"
  | utf16 big => if big then "utf-16-be" else "utf-16-le"
  | utf32 big => if big then "utf-32-be" else "utf-32-le"

/-- The code units of two bytes each, from a position on. -/
def units16 (big : Bool) (position : Nat) : List Nat → Except EncodingFault (List Nat)
  | a :: b :: rest => do
    let units ← units16 big (position + 2) rest
    return (if big then a * 256 + b else b * 256 + a) :: units
  | [] => .ok []
  | rest => .error (.truncated (utf16 big) position rest)

/-- The code points of four bytes each, from a position on. -/
def points32 (big : Bool) (position : Nat) : List Nat → Except EncodingFault (List Nat)
  | a :: b :: c :: d :: rest =>
    let n := if big then ((a * 256 + b) * 256 + c) * 256 + d
      else ((d * 256 + c) * 256 + b) * 256 + a
    if 0x110000 ≤ n then .error (.outOfRange (utf32 big) position)
    else do return n :: (← points32 big (position + 4) rest)
  | [] => .ok []
  | rest => .error (.truncated (utf32 big) position rest)

/-- Code units of 16 bits with the halves of each surrogate pair
joined. -/
def joinPairs : List Nat → List Nat
  | high :: low :: rest =>
    if CodePoint.isHighHalf high && CodePoint.isLowHalf low then
      CodePoint.joinHalves high low :: joinPairs rest
    else high :: joinPairs (low :: rest)
  | units => units

end Encoding

/-- The text of a body that came as UTF-8, where its bytes may turn out
to be in another encoding. -/
def bodyText (body : String) : Except EncodingFault Text :=
  let bytes := body.toUTF8.data.toList.map (·.toNat)
  match Encoding.detect bytes with
  | .utf8 =>
    match body.toList with
    | '\uFEFF' :: rest => .ok (.ofChars rest)
    | cs => .ok (.ofChars cs)
  | .utf16 big => do
    return (Encoding.joinPairs (← Encoding.units16 big 0 bytes)).map .ofNat
  | .utf32 big => do return (← Encoding.points32 big 0 bytes).map .ofNat

end Spreadsheet.Service
