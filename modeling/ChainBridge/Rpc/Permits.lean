/-
The cap on requests that are under way at once.

A pool has a fixed number of permits, at least one. A request takes a permit and gives it back when it ends, however it
ends. A request that finds none waits in line; permits that come back go to the front of the line. One that has waited
for too long ends with a timeout and is never sent.
-/
import ChainBridge.Rpc.Error

namespace ChainBridge.Rpc.Permits

/-- the most permits that a pool can have -/
def largest : Nat := 0x1FFFFFFFFFFFFFFF

/-- how long a request waits for a permit unless told otherwise, in milliseconds -/
def defaultPatience : Nat := 500

/-- how many permits a pool has that was asked for the given number; a pool can not be larger than the largest -/
def size? (limit : Nat) : Option Nat := if largest < limit then none else some (max limit 1)

/-- how far a request has come -/
inductive Stage where
  /-- in line since an instant -/
  | waiting (since : Nat)
  /-- it has a permit -/
  | holding
  /-- it was answered, or failed on the way -/
  | ended
  /-- it gave up waiting -/
  | timedOut
  /-- its caller left -/
  | dropped
deriving DecidableEq, Repr

structure Entry where
  id : Nat
  stage : Stage
deriving DecidableEq, Repr

structure St where
  now : Nat
  free : Nat
  /-- in the order in which they came -/
  requests : List Entry
  nextId : Nat
deriving DecidableEq, Repr

def new (size : Nat) : St := ⟨0, size, [], 1⟩

namespace St

def stage? (st : St) (id : Nat) : Option Stage := (st.requests.find? fun r => r.id == id).map (·.stage)

def move (st : St) (id : Nat) (stage : Stage) : St :=
  { st with requests := st.requests.map fun r => if r.id == id then { r with stage := stage } else r }

def isWaiting (r : Entry) : Bool :=
  match r.stage with
  | .waiting _ => true
  | _ => false

/-- a permit comes back; the first in line gets it -/
def giveBack (st : St) : St :=
  match st.requests.find? isWaiting with
  | some r => st.move r.id .holding
  | none => { st with free := st.free + 1 }

/-- a request comes in -/
def arrive (st : St) : St :=
  let st := { st with nextId := st.nextId + 1 }
  let add (stage : Stage) (free : Nat) : St :=
    { st with free := free, requests := st.requests ++ [⟨st.nextId - 1, stage⟩] }
  if st.free = 0 then add (.waiting st.now) 0 else add .holding (st.free - 1)

/-- a request that was sent ends -/
def finish (st : St) (id : Nat) : St :=
  match st.stage? id with
  | some .holding => (st.move id .ended).giveBack
  | _ => st

/-- a caller leaves its request, in line or under way -/
def drop (st : St) (id : Nat) : St :=
  match st.stage? id with
  | some .holding => (st.move id .dropped).giveBack
  | some (.waiting _) => st.move id .dropped
  | _ => st

/-- a request in line gives up if it has waited long enough -/
def expire (patience : Nat) (st : St) (id : Nat) : St :=
  match st.stage? id with
  | some (.waiting since) => if since + patience ≤ st.now then st.move id .timedOut else st
  | _ => st

def advance (st : St) (ms : Nat) : St := { st with now := st.now + ms }

/-- how many requests are under way -/
def holding (st : St) : Nat := (st.requests.filter fun r => decide (r.stage = .holding)).length

end St

inductive Act where
  | arrive
  | finish (id : Nat)
  | drop (id : Nat)
  | expire (id : Nat)
  | advance (ms : Nat)
deriving DecidableEq, Repr

def step (patience : Nat) (st : St) : Act → St
  | .arrive => st.arrive
  | .finish id => st.finish id
  | .drop id => st.drop id
  | .expire id => st.expire patience id
  | .advance ms => st.advance ms

def run (patience : Nat) (st : St) (acts : List Act) : St := acts.foldl (step patience) st

end ChainBridge.Rpc.Permits
