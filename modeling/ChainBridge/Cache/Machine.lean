/-
A cache in use: its books, the fills under way, the callers that wait for them, the clock and the counters.

Whatever happens to a cache is one `Act`, and `run` is any sequence of them, so every interleaving of callers, fills
and clock is a run. Each key has at most one fill at a time: the first caller that finds no live entry starts it, later
ones join it, and all of them come away with what it comes to. A fill goes on when its callers leave. It is `queued`
until it begins; then it ends with an outcome, or crashes, which leaves its callers with nothing. Either way its key is
unmarked when it ends, and its callers are told in a later act, so anything may come between the two. A fill whose task
is dropped while it is running ends like one that crashes; one that is dropped in the queue has nobody to unmark it.
-/
import ChainBridge.Cache.Policy
import ChainBridge.Cache.Store
import ChainBridge.Metrics

namespace ChainBridge.Cache

/-- the name under which a cache is counted, and its policy -/
structure Setup where
  name : String
  policy : Policy
deriving DecidableEq, Repr

/-- how far a fill has come -/
inductive Stage (V E : Type) where
  | queued
  | running
  /-- it came to an outcome, or to nothing if it crashed; its callers still wait -/
  | ended (outcome : Option (Except E V))
  /-- its callers may return -/
  | told (outcome : Option (Except E V))
  /-- its task was dropped before it began -/
  | dropped

/-- the one computation that answers every caller of a key -/
structure Fill (K V E J : Type) where
  id : Nat
  key : K
  ttl : Option Nat
  job : J
  stage : Stage V E

/-- what a caller was told when it was admitted -/
inductive Ticket (V : Type) where
  | served (value : V)
  | awaiting (fill : Nat)

structure Caller (K V : Type) where
  id : Nat
  key : K
  ticket : Ticket V

/-- what a caller comes away with -/
inductive Settled (V E : Type) where
  | value (v : V)
  | failed (e : E)
  | abandoned

/-- what the callers of a fill come away with, when it ended with an outcome or crashed -/
def Settled.ofOutcome {V E : Type} : Option (Except E V) → Settled V E
  | some (.ok v) => .value v
  | some (.error e) => .failed e
  | none => .abandoned

/-- what the callers of a fill come away with, once they may return -/
def Stage.settled? {V E : Type} : Stage V E → Option (Settled V E)
  | .told outcome => some (.ofOutcome outcome)
  | .dropped => some .abandoned
  | _ => none

/-- the result of asking for a key, in errors that can tell what the cache itself failed with -/
def Settled.result {K V E : Type} (absorb : Error → E) (debug : K → String) (key : K) : Settled V E → Except E V
  | .value v => .ok v
  | .failed e => .error e
  | .abandoned => .error (absorb (.fetchAbandoned (debug key)))

structure St (K V E J : Type) where
  now : Nat
  store : Store K V
  fills : List (Fill K V E J)
  callers : List (Caller K V)
  nextCaller : Nat
  metrics : Metrics.Registry

namespace St

variable {K V E J : Type} [DecidableEq K]

def new : St K V E J := ⟨0, Store.empty, [], [], 1, Metrics.Registry.empty⟩

/-! ## Plain use -/

/-- what a key holds now; an expired entry is removed and counts as a miss -/
def get (c : Setup) (st : St K V E J) (key : K) : St K V E J × Option V :=
  match st.store.lookup key st.now with
  | (s, .hit v) =>
    ({ st with
        store := { s with counters := { s.counters with hits := s.counters.hits + 1 } }
        metrics := st.metrics.hit c.name }, some v)
  | (s, found) =>
    let metrics := match found with
      | .expired => st.metrics.evicted c.name "expired" 1
      | _ => st.metrics
    ({ st with
        store := { s with counters := { s.counters with misses := s.counters.misses + 1 } }
        metrics := metrics.miss c.name }, none)

/-- stores a value at once; whether there was room -/
def set [Footprint K] [Footprint V] (c : Setup) (st : St K V E J) (key : K) (value : V) (ttl : Option Nat) :
    St K V E J × Bool :=
  match st.store.insert c.policy.maxSize st.now key value (ttl.getD c.policy.defaultTtl) with
  | (s, none) => ({ st with store := s }, false)
  | (s, some freed) =>
    let metrics := (st.metrics.evicted c.name "capacity" freed.evicted).evicted c.name "expired" freed.expired
    ({ st with store := s, metrics := metrics }, true)

/-- makes room for a value that is then not stored, since it would outlive the clock -/
def squeeze [Footprint K] [Footprint V] (c : Setup) (st : St K V E J) (key : K) (value : V) : St K V E J :=
  { st with store := (st.store.makeRoom c.policy.maxSize st.now (entrySize key value) key).1 }

/-- removes a key; whether it was stored -/
def invalidate (st : St K V E J) (key : K) : St K V E J × Bool :=
  ({ st with store := st.store.erase key }, (st.store.find? key).isSome)

def clear (st : St K V E J) : St K V E J := { st with store := st.store.clear }

/-- sweeps out what has expired; how many entries that were -/
def purge (c : Setup) (st : St K V E J) : St K V E J × Nat :=
  let (s, n) := st.store.purge st.now
  let metrics := (st.metrics.evicted c.name "expired" n).occupancy c.name s.entries.length s.occupied
  ({ st with store := s, metrics := metrics }, n)

def advance (st : St K V E J) (ms : Nat) : St K V E J := { st with now := st.now + ms }

/-! ## Callers -/

/-- admits a caller, and queues the job as a fill if the key has neither a live entry nor a fill; the caller's number -/
def fetch (c : Setup) (st : St K V E J) (key : K) (ttl : Option Nat) (job : J) : St K V E J × Nat :=
  let (s, admission, expired) := st.store.ask key st.now
  let metrics := if expired then st.metrics.evicted c.name "expired" 1 else st.metrics
  let id := st.nextCaller
  let join (ticket : Ticket V) (fills : List (Fill K V E J)) (metrics : Metrics.Registry) : St K V E J :=
    { st with
      store := s, fills := fills, callers := st.callers ++ [⟨id, key, ticket⟩], nextCaller := id + 1
      metrics := metrics }
  match admission with
  | .hit v => (join (.served v) st.fills (metrics.hit c.name), id)
  | .join fill => (join (.awaiting fill) st.fills (metrics.coalesced c.name), id)
  | .lead fill =>
    (join (.awaiting fill) (st.fills ++ [⟨fill, key, ttl, job, .queued⟩]) (metrics.miss c.name), id)

def fill? (st : St K V E J) (id : Nat) : Option (Fill K V E J) := st.fills.find? fun f => f.id == id

/-- what a caller comes away with, once that is known -/
def settled? (st : St K V E J) (caller : Nat) : Option (Settled V E) :=
  match st.callers.find? fun c => c.id == caller with
  | none => none
  | some ⟨_, _, .served v⟩ => some (.value v)
  | some ⟨_, _, .awaiting fill⟩ => (st.fill? fill).bind fun f => f.stage.settled?

/-- a caller leaves; a fill that it started goes on -/
def leave (st : St K V E J) (caller : Nat) : St K V E J :=
  { st with callers := st.callers.filter fun c => c.id != caller }

/-- a caller returns with what it comes away with, if that is known -/
def resume (st : St K V E J) (caller : Nat) : St K V E J × Option (Settled V E) :=
  match st.settled? caller with
  | none => (st, none)
  | some answer => (st.leave caller, some answer)

/-! ## Fills -/

/-- moves a fill to another stage -/
def move (st : St K V E J) (id : Nat) (stage : Stage V E) : St K V E J :=
  { st with fills := st.fills.map fun f => if f.id == id then { f with stage := stage } else f }

/-- the fills that wait to begin, and their jobs -/
def queued (st : St K V E J) : List (Nat × J) :=
  st.fills.filterMap fun f =>
    match f.stage with
    | .queued => some (f.id, f.job)
    | _ => none

/-- a queued fill begins -/
def begin (st : St K V E J) (id : Nat) : St K V E J :=
  match st.fill? id with
  | some ⟨_, _, _, _, .queued⟩ => st.move id .running
  | _ => st

/-- a running fill ends with an outcome: its key is unmarked, then a value is offered to the store -/
def finish [Footprint K] [Footprint V] (c : Setup) (st : St K V E J) (id : Nat) (outcome : Except E V) :
    St K V E J :=
  match st.fill? id with
  | some ⟨_, key, ttl, _, .running⟩ =>
    let st := { st with store := st.store.release key id }
    let st := match outcome with
      | .ok v => (st.set c key v ttl).1
      | .error _ => st
    st.move id (.ended (some outcome))
  | _ => st

/-- a running fill crashes: its key is unmarked -/
def crash (st : St K V E J) (id : Nat) : St K V E J :=
  match st.fill? id with
  | some ⟨_, key, _, _, .running⟩ => { st with store := st.store.release key id }.move id (.ended none)
  | _ => st

/-- the callers of a fill that has ended are told what it came to -/
def tell (st : St K V E J) (id : Nat) : St K V E J :=
  match st.fill? id with
  | some ⟨_, _, _, _, .ended outcome⟩ => st.move id (.told outcome)
  | _ => st

/-- the task of a fill is dropped, in the queue or while it is running -/
def discard (st : St K V E J) (id : Nat) : St K V E J :=
  match st.fill? id with
  | some ⟨_, _, _, _, .queued⟩ => st.move id .dropped
  | some ⟨_, _, _, _, .running⟩ => st.crash id
  | _ => st

end St

/-! ## Runs -/

inductive Act (K V E J : Type) where
  | get (key : K)
  | set (key : K) (value : V) (ttl : Option Nat)
  | squeeze (key : K) (value : V)
  | invalidate (key : K)
  | clear
  | purge
  | advance (ms : Nat)
  | fetch (key : K) (ttl : Option Nat) (job : J)
  | leave (caller : Nat)
  | resume (caller : Nat)
  | begin (fill : Nat)
  | finish (fill : Nat) (outcome : Except E V)
  | crash (fill : Nat)
  | tell (fill : Nat)
  | discard (fill : Nat)

variable {K V E J : Type} [DecidableEq K] [Footprint K] [Footprint V]

def step (c : Setup) (st : St K V E J) : Act K V E J → St K V E J
  | .get key => (st.get c key).1
  | .set key value ttl => (st.set c key value ttl).1
  | .squeeze key value => st.squeeze c key value
  | .invalidate key => (st.invalidate key).1
  | .clear => st.clear
  | .purge => (st.purge c).1
  | .advance ms => st.advance ms
  | .fetch key ttl job => (st.fetch c key ttl job).1
  | .leave caller => st.leave caller
  | .resume caller => (st.resume caller).1
  | .begin fill => st.begin fill
  | .finish fill outcome => st.finish c fill outcome
  | .crash fill => st.crash fill
  | .tell fill => st.tell fill
  | .discard fill => st.discard fill

def run (c : Setup) (st : St K V E J) (acts : List (Act K V E J)) : St K V E J := acts.foldl (step c) st

end ChainBridge.Cache
