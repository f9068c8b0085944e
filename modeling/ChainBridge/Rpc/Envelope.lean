/-
The envelopes in which requests and answers travel.

A request names the method, its parameters and a number that the answer repeats. An answer carries a result, or an error
with a code, a message and possibly data. Envelopes are read as records: members stand under their names in any order,
those that are not known are passed over as they are written, and none that is known may stand twice; or the values
stand in a list, in order. Where a result, an error or data may be missing, null means the same as nothing.
-/
import ChainBridge.Json.Printer
import ChainBridge.Json.Reader

namespace ChainBridge.Rpc

/-- the version that envelopes are written with -/
def version : String := "2.0"

/-! ## Records -/

open Json in
/-- the member of a name, which must not stand twice -/
def member? (members : List (String × Draft)) (name : String) : Option (Option Draft) :=
  match members.filter fun m => m.1 == name with
  | [] => some none
  | [m] => some (some m.2)
  | _ => none

open Json in
/-- the known members of a record, by name or by place -/
def record? (names : List String) : Draft → Option (List (Option Draft))
  | .object members => do
    let named ← members.mapM fun m => (textOf m.1).map (·, m.2)
    names.mapM (member? named)
  | .list items =>
    if items.length ≤ names.length then some (items.map some ++ List.replicate (names.length - items.length) none)
    else none
  | _ => none

open Json in
/-- a text, which must be there -/
def text? : Option Draft → Option String
  | some (.text pieces) => textOf pieces
  | _ => none

open Json in
/-- an integer within bounds, which must be there -/
def integer? (low high : Int) : Option Draft → Option Int
  | some (.number n) =>
    match n.toJson? with
    | some (.integer i) => if low ≤ i ∧ i ≤ high then some i else none
    | _ => none
  | _ => none

open Json in
/-- a value that may be missing; null is as good as nothing -/
def optional? {α : Type} (read : Draft → Option α) : Option Draft → Option (Option α)
  | none | some .null => some none
  | some d => (read d).map some

/-! ## Requests -/

structure RequestEnvelope where
  version : String
  method : String
  params : Json
  id : UInt64

namespace RequestEnvelope

def new (method : String) (params : Json) (id : UInt64) : RequestEnvelope := ⟨Rpc.version, method, params, id⟩

def toJson (r : RequestEnvelope) : Json :=
  .object [("jsonrpc", .text r.version), ("method", .text r.method), ("params", r.params), ("id", .natural r.id.toNat)]

def write (r : RequestEnvelope) : String := r.toJson.compact

/-- reads a request; all of its members must be there -/
def ofDraft? (d : Json.Draft) : Option RequestEnvelope := do
  match ← record? ["jsonrpc", "method", "params", "id"] d with
  | [version, method, params, id] =>
    return ⟨← text? version, ← text? method, ← Json.ofDraft (Json.maxDepth - 1) (← params),
      UInt64.ofNat (← integer? 0 0xFFFFFFFFFFFFFFFF id).toNat⟩
  | _ => none

def read? (body : List Char) : Option RequestEnvelope := (Json.Draft.read? body).bind ofDraft?

end RequestEnvelope

/-! ## Answers -/

structure ErrorObject where
  code : Int32
  message : String
  data : Option Json

structure Response where
  version : String
  result : Option Json
  error : Option ErrorObject
  id : Json

namespace ErrorObject

def toJson (e : ErrorObject) : Json :=
  .object [("code", .integer e.code.toInt), ("message", .text e.message), ("data", e.data.getD .null)]

def ofDraft? (d : Json.Draft) : Option ErrorObject := do
  match ← record? ["code", "message", "data"] d with
  | [code, message, data] =>
    return ⟨Int32.ofInt (← integer? (-0x80000000) 0x7FFFFFFF code), ← text? message,
      ← optional? (Json.ofDraft (Json.maxDepth - 2)) data⟩
  | _ => none

end ErrorObject

namespace Response

/-- the answer to a request that went well -/
def success (result : Json) (id : UInt64) : Response := ⟨Rpc.version, some result, none, .natural id.toNat⟩

/-- the answer to a request that failed -/
def failure (code : Int32) (message : String) (id : UInt64) : Response :=
  ⟨Rpc.version, none, some ⟨code, message, none⟩, .natural id.toNat⟩

def toJson (r : Response) : Json :=
  .object [("jsonrpc", .text r.version), ("result", r.result.getD .null),
    ("error", (r.error.map ErrorObject.toJson).getD .null), ("id", r.id)]

def write (r : Response) : String := r.toJson.compact

/-- reads an answer; only the version must be there -/
def ofDraft? (d : Json.Draft) : Option Response := do
  match ← record? ["jsonrpc", "result", "error", "id"] d with
  | [version, result, error, id] =>
    let value := Json.ofDraft (Json.maxDepth - 1)
    return ⟨← text? version, ← optional? value result, ← optional? ErrorObject.ofDraft? error,
      (← optional? value id).getD .null⟩
  | _ => none

def read? (body : List Char) : Option Response := (Json.Draft.read? body).bind ofDraft?

end Response

end ChainBridge.Rpc
