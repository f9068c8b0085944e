/-
Requests on their way through a client, and the calls of a transport that make them.

A request asks for a permit, is sent when it has one, and gives it back when it ends. It rests three times: for the
permit, for the head of the answer and for its body. Wherever it rests its caller may leave it. While it waits for a
permit it is looked at again when it is given one or when its patience is over, and the permit counts first.
-/
import ChainBridge.Rpc.Exchange
import ChainBridge.Rpc.Permits

namespace ChainBridge.Rpc

/-- the status that comes before a delivery, if an answer does -/
def Delivery.status? : Delivery → Option UInt16
  | .broken status _ | .answered status _ => some status
  | _ => none

/-! ## Clients -/

namespace Client

structure Config where
  /-- how many requests may be under way at once -/
  limit : Nat
  /-- how long a request waits for a permit, in milliseconds -/
  patience : Nat
deriving DecidableEq, Repr

/-- the settings for a limit -/
def Config.ofLimit (limit : Nat) : Config := ⟨limit, Permits.defaultPatience⟩

structure Request where
  id : Nat
  url : String
  body : List UInt8
deriving DecidableEq, Repr

structure St where
  pool : Permits.St
  /-- a closed pool gives no permits; nothing closes it -/
  closed : Bool
  requests : List Request
  /-- the requests that were sent, in order -/
  sent : List Nat
  /-- the heads of answers that have come -/
  heads : List (Nat × UInt16)
  /-- what requests came to; one that its caller left comes to nothing -/
  results : List (Nat × Except Error (List UInt8))

/-- a client with no requests, unless it was asked for more permits than a pool can have -/
def new? (config : Config) : Option St :=
  (Permits.size? config.limit).map fun size => ⟨Permits.new size, false, [], [], [], []⟩

namespace St

def request? (st : St) (id : Nat) : Option Request := st.requests.find? fun r => r.id == id

def head? (st : St) (id : Nat) : Option UInt16 := (st.heads.find? fun h => h.1 == id).map (·.2)

/-- whether a request has been sent and has not ended -/
def isUnderWay (st : St) (id : Nat) : Bool := id ∈ st.sent && decide (st.pool.stage? id = some .holding)

def conclude (st : St) (id : Nat) (result : Except Error (List UInt8)) : St :=
  { st with results := st.results ++ [(id, result)] }

/-- a request that has a permit is sent, once -/
def send (st : St) (id : Nat) : St :=
  if st.pool.stage? id = some .holding ∧ id ∉ st.sent then { st with sent := st.sent ++ [id] } else st

/-- a request gets no permit from a closed pool -/
def refuse (st : St) (id : Nat) : St :=
  { st with pool := st.pool.drop id }.conclude id (.error (.concurrencyLimit "http client semaphore closed"))

/-- a request comes in; if it gets a permit at once it does not rest before it is sent -/
def enter (st : St) (url : String) (body : List UInt8) : St :=
  let request : Request := ⟨st.pool.nextId, url, body⟩
  let st := { st with pool := st.pool.arrive, requests := st.requests ++ [request] }
  if st.closed then st.refuse request.id else st.send request.id

/-- a request that waits for a permit is looked at again -/
def resume (patience : Nat) (st : St) (id : Nat) : St :=
  match st.pool.stage? id with
  | some .holding => st.send id
  | some (.waiting since) =>
    if st.closed then st.refuse id
    else if since + patience ≤ st.pool.now then
      { st with pool := st.pool.expire patience id }.conclude id (.error .timeout)
    else st
  | _ => st

/-- the head of an answer comes -/
def answer (st : St) (id : Nat) (status : UInt16) : St :=
  match st.request? id with
  | some r =>
    if st.isUnderWay id ∧ Url.isUsable r.url ∧ st.head? id = none then { st with heads := st.heads ++ [(id, status)] }
    else st
  | none => st

/-- the connection of a request brings a delivery, behind the head that has come if there was one -/
def finish (st : St) (id : Nat) (d : Delivery) : St :=
  match st.request? id with
  | some r =>
    let d := Transport.deliver r.url d
    if st.isUnderWay id ∧ st.head? id = d.status? then { st with pool := st.pool.finish id }.conclude id d.body
    else st
  | none => st

/-- a caller leaves its request, wherever it rests -/
def leave (st : St) (id : Nat) : St := { st with pool := st.pool.drop id }

def wait (st : St) (ms : Nat) : St := { st with pool := st.pool.advance ms }

end St

inductive Act where
  | enter (url : String) (body : List UInt8)
  | resume (id : Nat)
  | answer (id : Nat) (status : UInt16)
  | finish (id : Nat) (d : Delivery)
  | leave (id : Nat)
  | wait (ms : Nat)
deriving DecidableEq, Repr

def step (patience : Nat) (st : St) : Act → St
  | .enter url body => st.enter url body
  | .resume id => st.resume patience id
  | .answer id status => st.answer id status
  | .finish id d => st.finish id d
  | .leave id => st.leave id
  | .wait ms => st.wait ms

def run (patience : Nat) (st : St) (acts : List Act) : St := acts.foldl (step patience) st

end Client

/-! ## Calls -/

namespace Calls

structure St where
  transport : Transport
  /-- the requests that calls have written, in order -/
  issued : List RequestEnvelope
  /-- those of them that have not come to the client yet -/
  pending : List RequestEnvelope
  client : Client.St

def new? (url : String) (limit : Nat) : Option St :=
  (Client.new? (.ofLimit limit)).map fun client => ⟨Transport.new url, [], [], client⟩

inductive Act where
  /-- a call takes its number and writes its request -/
  | call (method : String) (params : Json)
  /-- one of the requests that are pending goes to the client -/
  | enter (i : Nat)
  /-- the client does something else -/
  | client (a : Client.Act)

def step (st : St) : Act → St
  | .call method params =>
    let (transport, envelope) := st.transport.next method params
    { st with transport := transport, issued := st.issued ++ [envelope], pending := st.pending ++ [envelope] }
  | .enter i =>
    match st.pending[i]? with
    | some envelope =>
      let body := Text.Utf8.encode envelope.write.toList
      { st with pending := st.pending.eraseIdx i, client := st.client.enter st.transport.url body }
    | none => st
  | .client a => { st with client := Client.step Permits.defaultPatience st.client a }

def run (st : St) (acts : List Act) : St := acts.foldl step st

end Calls

end ChainBridge.Rpc
