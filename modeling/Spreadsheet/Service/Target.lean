/-
The target of a request, and the path that it names.

# What counts

A target is a path or a whole URL. Its scheme plays no part in the choice of
an endpoint, nor does its authority as long as it is valid, nor what stands
behind the path. Control characters and blanks in front of a target are no
part of it, nor are tabs and line breaks anywhere. Every other character of
the path counts, a semicolon too.

# Escapes

Escapes of ASCII characters are resolved last and once. An escape of any
other byte is left as it stands, so a path with one is the path of no
endpoint.

# The query

The query is sent along with the path and is not looked at, but it must be
possible to send it: a surrogate in it is a fault of the request.
-/
import Spreadsheet.Service.Authority

namespace Spreadsheet.Service

/-- The parts of a target that are sent. -/
structure Target where
  path : Text
  query : Text
deriving DecidableEq

namespace Target

-- ====================================================== the parts of a target

/-- A target without the characters that are no part of it. -/
def cleaned (target : Text) : Text :=
  (target.dropWhile fun c => decide (c.code ≤ 32)).filter fun c =>
    c ≠ '\t' && c ≠ '\n' && c ≠ '\r'

/-- Is the character a letter of the basic alphabet? -/
def isLetter (c : CodePoint) : Bool :=
  c.within 'A' 'Z' || c.within 'a' 'z'

/-- Can the character stand in a scheme? -/
def inScheme (c : CodePoint) : Bool :=
  isLetter c || c.within '0' '9' || c = '+' || c = '-' || c = '.'

/-- What is left after the scheme, if there is one. -/
def dropScheme (target : Text) : Text :=
  match target.takeWhile inScheme, target.dropWhile inScheme with
  | first :: _, .char ':' :: rest => if isLetter first then rest else target
  | _, _ => target

/-- Does the character end an authority? -/
def endsAuthority (c : CodePoint) : Bool :=
  c = '/' || c = '?' || c = '#'

/-- The authority, which is empty if there is none, and the rest. -/
def splitAuthority : Text → Text × Text
  | .char '/' :: .char '/' :: rest =>
    (rest.takeWhile (!endsAuthority ·), rest.dropWhile (!endsAuthority ·))
  | rest => ([], rest)

/-- The parts of a target; its authority may be at fault. -/
def parse (target : Text) : Except AuthorityFault Target :=
  let (authority, rest) := splitAuthority (dropScheme (cleaned target))
  let sent := Authority.before '#' rest
  match Authority.fault? authority with
  | some fault => .error fault
  | none => .ok ⟨Authority.before '?' sent, Authority.after '?' sent⟩

-- ====================================================== escapes

/-- The ASCII character of two hexadecimal digits. -/
def escaped? (a b : Char) : Option Char := do
  let n := (← Json.hexValue? a) * 16 + (← Json.hexValue? b)
  if n < 128 then some (Char.ofNat n) else none

/-- A path with the escapes of ASCII characters resolved. -/
def resolveEscapes : List Char → List Char
  | '%' :: a :: b :: rest =>
    match escaped? a b with
    | some c => c :: resolveEscapes rest
    | none => '%' :: resolveEscapes (a :: b :: rest)
  | c :: rest => c :: resolveEscapes rest
  | [] => []

end Target

end Spreadsheet.Service
