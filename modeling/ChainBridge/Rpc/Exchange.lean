/-
One exchange with the node over HTTP, and what it comes to.

A request is delivered once and never again. What comes of that is one of a few deliveries; only a body that came with a
2xx status is looked at further. An error in the answer counts whether or not there is a result beside it, and an answer
without a result is no answer. Of the body of any other status at most 256 bytes are kept, up to a character boundary.
-/
import ChainBridge.Rpc.Envelope
import ChainBridge.Rpc.Error
import ChainBridge.Rpc.Url
import ChainBridge.Text.Utf8

namespace ChainBridge.Rpc

open Text

/-- what comes of sending a request -/
inductive Delivery where
  /-- the text of the URL names no server -/
  | unusableUrl
  /-- no connection to the server -/
  | unreachable
  /-- the connection was closed without an answer -/
  | closed
  /-- no answer in time -/
  | timedOut
  /-- an answer whose body ended too early, or too late -/
  | broken (status : UInt16) (late : Bool)
  | answered (status : UInt16) (body : List UInt8)
deriving DecidableEq, Repr

/-- whether a status says that the request went well -/
def isSuccess (status : UInt16) : Bool := 200 ≤ status && status < 300

/-! ## Bodies of failures -/

/-- how many bytes of a body are kept -/
def bodyLimit : Nat := 256

/-- the text of a body, cut if it is too long -/
def keptText (text : List Char) : List Char :=
  if Utf8.size text ≤ bodyLimit then text else Utf8.cut bodyLimit text ++ "... (truncated)".toList

def keptBody (body : List UInt8) : String := String.ofList (keptText (Utf8.decode body))

/-! ## What an exchange comes to -/

/-- the body of a delivery, or why there is none -/
def Delivery.body : Delivery → Except Error (List UInt8)
  | .unusableUrl => .error (.transport "network error")
  | .unreachable => .error (.transport "connection refused or unreachable")
  | .closed => .error (.transport "request failed")
  | .timedOut => .error .timeout
  | .broken status late =>
    if !isSuccess status then .error (.http status "")
    else if late then .error .timeout
    else .error (.transport "response decode error")
  | .answered status body => if isSuccess status then .ok body else .error (.http status (keptBody body))

/-- the result that a body carries; of a body that is no response only so much is told, not what the reader stumbled
over -/
def readBody (method : String) (body : List UInt8) : Except Error Json :=
  match (Json.Draft.ofBytes? body).bind Response.ofDraft? with
  | none => .error (.decode "malformed JSON-RPC response")
  | some r =>
    match r.error, r.result with
    | some e, _ => .error (.remote e.code e.message)
    | none, none | none, some .null => .error (.decode (method ++ " response carried no result"))
    | none, some v => .ok v

/-- the result of an exchange -/
def Delivery.result (method : String) (d : Delivery) : Except Error Json := do readBody method (← d.body)

/-! ## A transport -/

/-- where requests go and the number of the next one -/
structure Transport where
  url : String
  nextId : UInt64
deriving DecidableEq, Repr

namespace Transport

def new (url : String) : Transport := ⟨url, 1⟩

/-- writes the next request; its number is never used again -/
def next (t : Transport) (method : String) (params : Json) : Transport × RequestEnvelope :=
  ({ t with nextId := t.nextId + 1 }, RequestEnvelope.new method params t.nextId)

/-- what comes of sending to a URL when the connection behind it would bring the given delivery -/
def deliver (url : String) (d : Delivery) : Delivery := if Url.isUsable url then d else .unusableUrl

end Transport

end ChainBridge.Rpc
