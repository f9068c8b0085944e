/-
A repository in use: its cache, the operations under way, the requests that were sent and the answers that were given.

Whatever happens to a repository is one `Act`, and `run` is any sequence of them. An operation asks for its loads one at
a time, and anything may come between two of them; it returns when all of them are settled, or is given up before. A
fill sends its request when it begins. Then the node replies, which is counted, and the fill ends with what the reply
comes to; or the fill crashes. After that its callers are told.

The replies of a run are part of its acts. `Follows` is a run in which they are those of one node that answers each
request in the same way, and no fill crashes.
-/
import ChainBridge.Repository.Operation

namespace ChainBridge.Repository

/-- an operation under way -/
structure Visit where
  id : Nat
  operation : Operation
  /-- its callers in the cache, one for each load that it has asked for -/
  callers : List Nat

/-- the load that an operation asks for next, if there is one left -/
def Visit.next? (o : Options) (v : Visit) : Option Load := (v.operation.loads o)[v.callers.length]?

/-- an operation that has returned, what its callers came away with, and its answer -/
structure Return where
  id : Nat
  operation : Operation
  settled : List (Cache.Settled Value Rpc.Error)
  answer : Except Error Answer

structure St where
  cache : Cache.St Key Value Rpc.Error Rpc.Query
  visits : List Visit
  nextVisit : Nat
  sent : List Rpc.Request
  returned : List Return

namespace St

def new : St := ⟨.new, [], 1, [], []⟩

/-! ## Operations -/

/-- an operation starts -/
def visit (st : St) (op : Operation) : St :=
  { st with visits := st.visits ++ [⟨st.nextVisit, op, []⟩], nextVisit := st.nextVisit + 1 }

def visit? (st : St) (id : Nat) : Option Visit := st.visits.find? fun v => v.id == id

/-- an operation asks for its next load -/
def ask (s : Setting) (st : St) (id : Nat) : St :=
  match st.visit? id with
  | none => st
  | some v =>
    match v.next? s.options with
    | none => st
    | some l =>
      let (cache, caller) := st.cache.fetch s.setup l.key l.ttl l.job
      { st with
        cache := cache
        visits := st.visits.map fun w => if w.id == id then { w with callers := w.callers ++ [caller] } else w }

/-- an operation and its callers are gone -/
def leave (st : St) (v : Visit) : St :=
  { st with cache := Cache.leaveAll st.cache v.callers, visits := st.visits.filter fun w => w.id != v.id }

/-- an operation returns, if it has asked for all of its loads and all are settled -/
def resume (s : Setting) (st : St) (id : Nat) : St :=
  match st.visit? id with
  | none => st
  | some v =>
    match v.next? s.options, Cache.settledAll? st.cache v.callers with
    | none, some settled =>
      let st := st.leave v
      { st with returned := st.returned ++ [⟨id, v.operation, settled, v.operation.answer s.options settled⟩] }
    | _, _ => st

/-- an operation is given up; the fills that it started go on -/
def giveUp (st : St) (id : Nat) : St :=
  match st.visit? id with
  | none => st
  | some v => st.leave v

/-! ## Fills -/

/-- a queued fill begins and sends its request -/
def begin (s : Setting) (st : St) (fill : Nat) : St :=
  match st.cache.fill? fill with
  | some ⟨_, _, _, q, .queued⟩ => { st with cache := st.cache.begin fill, sent := st.sent ++ [q.request s.ns] }
  | _ => st

/-- the node replies to a running fill, which ends -/
def reply (s : Setting) (st : St) (fill : Nat) (result : Except Rpc.Error Json) : St :=
  match st.cache.fill? fill with
  | some ⟨_, _, _, q, .running⟩ =>
    let counted := { st.cache with metrics := st.cache.metrics.add (q.counter s.ns result) 1 }
    { st with cache := counted.finish s.setup fill (q.conclude s.ns result) }
  | _ => st

end St

/-! ## Runs -/

inductive Act where
  | visit (op : Operation)
  | ask (visit : Nat)
  | resume (visit : Nat)
  | giveUp (visit : Nat)
  | begin (fill : Nat)
  | reply (fill : Nat) (result : Except Rpc.Error Json)
  | crash (fill : Nat)
  | tell (fill : Nat)
  | invalidate (key : Key)
  | clear
  | purge
  | advance (ms : Nat)

def step (s : Setting) (st : St) : Act → St
  | .visit op => st.visit op
  | .ask visit => st.ask s visit
  | .resume visit => st.resume s visit
  | .giveUp visit => st.giveUp visit
  | .begin fill => st.begin s fill
  | .reply fill result => st.reply s fill result
  | .crash fill => { st with cache := st.cache.crash fill }
  | .tell fill => { st with cache := st.cache.tell fill }
  | .invalidate key => { st with cache := (st.cache.invalidate key).1 }
  | .clear => { st with cache := st.cache.clear }
  | .purge => { st with cache := (st.cache.purge s.setup).1 }
  | .advance ms => { st with cache := st.cache.advance ms }

def run (s : Setting) (st : St) (acts : List Act) : St := acts.foldl (step s) st

/-- whether an act is one that a node which answers in the same way allows -/
def Act.Allowed (s : Setting) (node : Node) (st : St) : Act → Prop
  | .reply fill result => ∀ f ∈ st.cache.fill? fill, result = node (f.job.request s.ns)
  | .crash _ => False
  | _ => True

/-- a run of which every act is allowed -/
def Follows (s : Setting) (node : Node) (st : St) : List Act → Prop
  | [] => True
  | act :: rest => act.Allowed s node st ∧ Follows s node (step s st act) rest

end ChainBridge.Repository
