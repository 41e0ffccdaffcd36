/-
The endpoints of the service: evaluate a formula, expand a range, and
recalculate a sheet.

Each takes a payload and answers with a JSON object. A request that is
refused, or during which something goes wrong, is answered with status 400
and the reason; what a formula does wrong is part of its result. A request
that cannot be sent at all has no answer.

# Reasons

A refusal is one value (`Refusal`), from the size of the body to a fault in
the middle of a recalculation, and has one wording (`Refusal.toJson`). What
an endpoint finds wrong with a body, a form or cells it reports itself. What
goes wrong beyond that is reported by the evaluation of a formula and by a
recalculation, which catch everything. The expansion of a range does not:
there a body that is too large is answered with the status alone. Nothing
else can go wrong in it, since the form lets no range through whose corners
cannot be read.

# What is left out

Headers, cookies, logging and the files that a service serves beside its
endpoints are no part of an answer and are left out. So are limits of the
host: nothing here stands for the memory or the stack that a request takes.
-/
import Spreadsheet.Grid
import Spreadsheet.Recalculation
import Spreadsheet.Report
import Spreadsheet.Service.Payload
import Spreadsheet.Service.Target

namespace Spreadsheet.Service

/-- An answer: a status, and a JSON body if there is one. -/
structure Response where
  status : Nat
  body : Option Json

/-- How the service evaluates, and how many rows a preview has. -/
structure Configuration where
  settings : Settings
  previewRows : Int := 20

/-- A request as a client makes it. -/
structure Request where
  method : Text
  target : Text
  body : Text

/-- Why a request cannot be sent. -/
inductive RequestFault where
  | authority (fault : AuthorityFault)
  | unencodable (fault : Text.Unencodable)

-- ====================================================== refusals

/-- The wording of a fault of an encoding. -/
def EncodingFault.message : EncodingFault → String
  | truncated encoding position bytes =>
    match bytes with
    | [byte] =>
      let digits := String.ofList (Text.hexDigits 2 byte)
      s!"'{encoding.name}' codec can't decode byte 0x{digits} in position {position}: "
        ++ "truncated data"
    | _ => bytesAt encoding position (position + bytes.length - 1) ++ "truncated data"
  | outOfRange encoding position =>
    bytesAt encoding position (position + 3) ++ "code point not in range(0x110000)"
where
  bytesAt (encoding : Encoding) (first last : Nat) : String :=
    s!"'{encoding.name}' codec can't decode bytes in position {first}-{last}: "

/-- The reason that a refused request is given. -/
def Refusal.toJson : Refusal → Json
  | tooLarge => .object [("success", .bool false),
      ("error", .string "Request body exceeded settings.DATA_UPLOAD_MAX_MEMORY_SIZE.")]
  | undecodable cause => refused "Request body is not valid JSON" (.string cause.message)
  | notJson text stop => refused "Request body is not valid JSON" (.string (stop.message text))
  | notObject => refused "Request body must be a JSON object" .null
  | form complaints => .object [("success", .bool false), ("error", complaintsJson complaints)]
  | invalidCells cause => refused "Invalid cells" (.string cause.message)
  | fault cause => .object [("success", .bool false), ("error", .string cause.message)]
where
  refused (message : String) (details : Json) : Json :=
    .object [("success", .bool false), ("error", .string message), ("details", details)]

/-- Does a refusal come from a body, a form or cells that the service
looked at itself? -/
def Refusal.isReported : Refusal → Bool
  | tooLarge | fault _ => false
  | undecodable _ | notJson .. | notObject | form _ | invalidCells _ => true

-- ====================================================== endpoints

/-- Evaluates one formula against the cells of the payload. -/
def evaluate (configuration : Configuration) (fields : Entries Json) : Except Refusal Json := do
  let (formula, key) ← evaluateForm fields
  let store ← cellsOf fields
  let env := Environment.ofStore store configuration.settings
  return .object [("success", .bool true), ("cell_id", .string key),
    ("result", (Eval.evaluateText env formula).toJson)]

/-- Expands a range into the keys of its cells. -/
def expandRange (fields : Entries Json) : Except Refusal Json := do
  let range ← rangeForm fields
  let keys ← (Range.expand range).mapError .fault
  return .object [("success", .bool true), ("cells", .array (keys.map .string))]

/-- A changed display as a client reads it. -/
def displayJson (display : Option Content) : Json :=
  (display.map Content.toJson).getD .null

/-- The order of evaluation and the changes of a recalculation: of an
edited cell and those that read it, or of every formula. -/
def recalculated (store : Store) (settings : Settings) (graph : Graph) :
    Option Text → Except Fault (List Text × Changes)
  | some edited => do
    let order ← store.affected graph edited
    return (order, ← store.recalculateDependents settings graph edited)
  | none => do
    let formulas := store.entries.filter fun entry => entry.2.hasFormula
    return (← sortKeys (Entries.names formulas), store.recalculate settings)

/-- Recalculates the cells of the payload and shows the first rows of
the sheet. -/
def recalculate (configuration : Configuration) (fields : Entries Json) :
    Except Refusal Json := do
  let edited ← recalculateForm fields
  let store ← cellsOf fields
  Except.mapError .fault do
    let graph ← Graph.ofStore store
    let cycle ← graph.cycle?
    let (order, changes) ← recalculated store configuration.settings graph edited
    let grid ← Grid.ofStore (store.write changes)
    return .object [
      ("success", .bool true),
      ("changes", .object (changes.map fun (key, display) => (key, displayJson display))),
      ("order", .array (order.map .string)),
      ("circular", .array ((cycle.getD []).map .string)),
      ("cell_errors",
        .integer (changes.countP fun change => ErrorCode.isShownBy (displayJson change.2))),
      ("preview", .array (grid.preview configuration.previewRows))]

-- ====================================================== routes

/-- An endpoint: what it makes of the fields of a payload, and whether
it gives a reason for every refusal or only for those that are reported
to it. -/
structure Endpoint where
  run : Configuration → Entries Json → Except Refusal Json
  explainsAll : Bool

/-- The endpoint under a path. -/
def endpoint? (path : String) : Option Endpoint :=
  [("/evaluate/", ⟨evaluate, true⟩), ("/expand-range/", ⟨fun _ => expandRange, false⟩),
    ("/recalculate/", ⟨recalculate, true⟩)].lookup path

/-- The answer to a refused request: the reason, where the endpoint
gives one. -/
def Endpoint.refuse (endpoint : Endpoint) (refusal : Refusal) : Response :=
  ⟨400, if endpoint.explainsAll || refusal.isReported then some refusal.toJson else none⟩

/-- The answer to a request that was sent. A path without its last slash
is redirected, and an endpoint takes no method but POST. -/
def answer (configuration : Configuration) (method : Text) (path body : String) : Response :=
  match endpoint? path with
  | none => if (endpoint? (path ++ "/")).isSome then ⟨301, none⟩ else ⟨404, none⟩
  | some endpoint =>
    if Text.upper method ≠ "POST" then ⟨405, none⟩
    else
      match payload body >>= endpoint.run configuration with
      | .ok answer => ⟨200, some answer⟩
      | .error refusal => endpoint.refuse refusal

/-- Sends a request: its target must be valid, and its body, path and
query are encoded. -/
def respond (configuration : Configuration) (request : Request) :
    Except RequestFault Response := do
  let target ← (Target.parse request.target).mapError .authority
  let body ← (Text.encodable request.body).mapError .unencodable
  let path ← (Text.encodable target.path).mapError .unencodable
  let _ ← (Text.encodable target.query).mapError .unencodable
  let path := String.ofList (Target.resolveEscapes path.toList)
  return answer configuration request.method path body

/-- The wording of a fault of a request. -/
def RequestFault.message : RequestFault → Text
  | authority fault => fault.message
  | unencodable fault => fault.message

end Spreadsheet.Service
