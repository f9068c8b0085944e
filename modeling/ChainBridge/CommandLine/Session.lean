/-
A bridge in the hands of one caller.

The caller follows one task through the cache. Whatever the cache does not have is fetched from the node, one request
after the other, and the task goes on when all of its batch is there.
-/
import ChainBridge.Bridge.Build
import ChainBridge.Cache.Landing
import ChainBridge.Cache.Stats
import ChainBridge.Cache.Task
import ChainBridge.CommandLine.Procedure

namespace ChainBridge.CommandLine

open Repository

structure Session where
  plan : Bridge.Blueprint
  transport : Rpc.Transport
  /-- how many seconds the node has for an answer -/
  patience : Nat
  cache : Cache.St Key Value Rpc.Error Rpc.Query

namespace Session

def new (plan : Bridge.Blueprint) (node : Config.Node) : Session :=
  ⟨plan, .new node.url, node.timeoutSeconds.toNat, .new⟩

def stats (s : Session) : Cache.Stats := s.cache.store.stats s.plan.setup.policy.maxSize

/-- ends a fill with what its request came to -/
def settle (s : Session) (fill : Nat) (q : Rpc.Query) (delivery : Rpc.Delivery) : Session :=
  let reply := delivery.result (q.method s.plan.ns)
  let begun := s.cache.begin fill
  let cache := { begun with metrics := begun.metrics.add (q.counter s.plan.ns reply) 1 }
  { s with cache := cache.land s.plan.setup Cache.endOfTime fill (some (q.conclude s.plan.ns reply)) }

/-- lets fills ask the node, one after the other -/
def serve (s : Session) (next : Session → Procedure) : List (Nat × Rpc.Query) → Procedure
  | [] => next s
  | (fill, q) :: rest =>
    let (transport, envelope) := s.transport.next (q.method s.plan.ns) q.params
    let s := { s with transport := transport }
    if Rpc.Url.isUsable transport.url then
      .send transport.url s.patience envelope fun delivery => (s.settle fill q delivery).serve next rest
    else (s.settle fill q .unusableUrl).serve next rest

/-- follows a task to its end -/
def follow {A : Type} (s : Session) (next : Session → A → Procedure) : Repository.Task A → Procedure
  | .done answer => next s answer
  | .ask loads rest =>
    let (cache, callers) := Cache.askAll s.plan.setup s.cache loads
    let s := { s with cache := cache }
    s.serve (fun s =>
      let answers := callers.map fun c => (s.cache.settled? c).getD .abandoned
      { s with cache := Cache.leaveAll s.cache callers }.follow next (rest answers)) s.cache.queued

end Session

end ChainBridge.CommandLine
