/-
The authority of a target: the host that a URL names before its path.

# Hosts in brackets

A host in brackets must be an address of version 6, perhaps with a zone, or
one of a later version, which starts with a v. Brackets must come in pairs.
An address of version 4 is refused there, although it would be a host
without brackets.

# Dividing characters

An authority may hold no character whose compatibility form contains a mark
that divides a URL: such a host could be taken apart in another way once it
is normalized. These characters are kept as a table of ranges.

# What is not asked

Nothing else is asked of an authority. The service that answers is the same
for every host, so the host itself plays no part.
-/
import Spreadsheet.Decimal.Whole
import Spreadsheet.Json.Reader
import Spreadsheet.Text.Quoted

namespace Spreadsheet.Service

/-- Why a target has no valid authority. -/
inductive AuthorityFault where
  | unpairedBracket
  | laterVersion
  | notAddress (host : Text)
  | version4InBrackets
  | dividingCharacter (authority : Text)
deriving DecidableEq

namespace Authority

-- ====================================================== pieces of a text

/-- The pieces of a text around every place where a character stands. -/
def pieces (mark : CodePoint) : Text → List Text
  | [] => [[]]
  | c :: rest =>
    if c = mark then [] :: pieces mark rest
    else
      match pieces mark rest with
      | first :: others => (c :: first) :: others
      | [] => [[c]]

/-- What stands after the first place where a character stands; nothing
if it stands nowhere. -/
def after (mark : CodePoint) (text : Text) : Text :=
  (text.dropWhile (· ≠ mark)).drop 1

/-- What stands before the first place where a character stands. -/
def before (mark : CodePoint) (text : Text) : Text :=
  text.takeWhile (· ≠ mark)

-- ====================================================== addresses

/-- Is the text a number from 0 to 255 without needless zeros? -/
def isOctet (part : Text) : Bool :=
  !part.isEmpty && part.length ≤ 3 && part.all (·.within '0' '9')
    && (part.length == 1 || part.head? != some (.char '0')) && Decimal.valueOf part ≤ 255

/-- Is the text an address of version 4, four octets with points
between? -/
def isVersion4 (host : Text) : Bool :=
  let parts := pieces '.' host
  parts.length == 4 && parts.all isOctet

/-- Is the text a group of one to four hexadecimal digits? -/
def isGroup (part : Text) : Bool :=
  !part.isEmpty && part.length ≤ 4 && part.all fun c => (Json.hexValue? c).isSome

/-- Are the parts on one side of a gap all groups, or is there none but
the edge of the text? -/
def isSide (parts : List Text) : Bool :=
  parts == [[]] || parts.all isGroup

/-- The parts of an address of version 6 between its colons, where an
address of version 4 at the end stands for two groups. -/
def parts? (address : Text) : Option (List Text) :=
  let parts := pieces ':' address
  let last := parts.getLastD []
  if parts.length < 3 then none
  else if last.contains (.char '.') then
    if isVersion4 last then some (parts.dropLast ++ [Text.ofString "0", "0"]) else none
  else some parts

/-- Is the text an address of version 6 without a zone: eight groups, or
fewer around one gap? -/
def isPlainVersion6 (address : Text) : Bool :=
  match parts? address with
  | none | some [] => false
  | some (first :: rest) =>
    let left := first :: rest.takeWhile (!·.isEmpty)
    match rest.dropWhile (!·.isEmpty) with
    | _ :: next :: others =>
      let right := next :: others
      isSide left && isSide right && left.countP isGroup + right.countP isGroup ≤ 7
    | _ => rest.length == 7 && (first :: rest).all isGroup

/-- Is the text an address of version 6, perhaps with a percent sign and
a zone? -/
def isVersion6 (host : Text) : Bool :=
  let zone := after '%' host
  isPlainVersion6 (before '%' host)
    && (!host.contains (.char '%') || !zone.isEmpty && !zone.contains (.char '%'))

/-- Has the text the form of an address of a later version: a v,
hexadecimal digits, a point and more? -/
def isLater (host : Text) : Bool :=
  let version := (host.drop 1).takeWhile fun c => (Json.hexValue? c).isSome
  match (host.drop 1).drop version.length with
  | .char '.' :: _ :: _ => !version.isEmpty
  | _ => false

-- ====================================================== authorities

/-- The characters whose compatibility form contains one of the marks
that divide a URL (Unicode 14). -/
def dividingRanges : Text.CodeRanges :=
  [(8263, 8265), (8448, 8449), (8453, 8454), (10868, 10868), (65043, 65043), (65046, 65046),
   (65109, 65110), (65119, 65119), (65131, 65131), (65283, 65283), (65295, 65295),
   (65306, 65306), (65311, 65312)]

/-- The fault of a host in brackets, if it has one. -/
def hostFault? (host : Text) : Option AuthorityFault :=
  if host.head? = some (.char 'v') then if isLater host then none else some .laterVersion
  else if isVersion4 host then some .version4InBrackets
  else if isVersion6 host then none
  else some (.notAddress host)

/-- The fault of an authority, if it has one; its brackets are looked at
first. -/
def fault? (authority : Text) : Option AuthorityFault :=
  let opens := authority.contains (.char '[')
  let closes := authority.contains (.char ']')
  let bracketed :=
    if opens != closes then some .unpairedBracket
    else if opens then hostFault? (before ']' (after '[' authority))
    else none
  bracketed <|>
    if authority.any dividingRanges.has then some (.dividingCharacter authority) else none

end Authority

/-- The wording of a fault of an authority. -/
def AuthorityFault.message : AuthorityFault → Text
  | unpairedBracket => "Invalid IPv6 URL"
  | laterVersion => "IPvFuture address is invalid"
  | notAddress host => Text.quoted host ++ " does not appear to be an IPv4 or IPv6 address"
  | version4InBrackets => "An IPv4 address cannot be in brackets"
  | dividingCharacter authority =>
    "netloc '" ++ authority ++ "' contains invalid characters under NFKC normalization"

end Spreadsheet.Service
