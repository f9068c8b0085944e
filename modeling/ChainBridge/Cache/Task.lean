/-
What a caller of a cache does: it asks for a batch of keys at once, waits until every one of them is answered, and goes
on with the answers, or is done.

A task says nothing about the cache. It can be followed through one, and `Task.direct` follows it without: every job of
a batch is answered on the spot.
-/
import ChainBridge.Cache.Machine

namespace ChainBridge.Cache

/-- a key to ask for, how long a fetched value lives, and the job that fetches it -/
structure Load (K J : Type) where
  key : K
  ttl : Option Nat
  job : J
deriving DecidableEq, Repr

inductive Task (K V E J A : Type) where
  | done (answer : A)
  | ask (loads : List (Load K J)) (next : List (Settled V E) → Task K V E J A)

namespace Task

variable {K V E J A B : Type}

/-- goes on with what a task comes to -/
def bind (t : Task K V E J A) (next : A → Task K V E J B) : Task K V E J B :=
  match t with
  | .done a => next a
  | .ask loads rest => .ask loads fun answers => (rest answers).bind next

def map (f : A → B) (t : Task K V E J A) : Task K V E J B := t.bind fun a => .done (f a)

/-- one task after the other -/
def inTurn : List (Task K V E J A) → Task K V E J (List A)
  | [] => .done []
  | t :: rest => t.bind fun a => (inTurn rest).map (a :: ·)

/-- what a task comes to when each job is answered by itself -/
def direct (answer : J → Settled V E) : Task K V E J A → A
  | .done a => a
  | .ask loads next => (next (loads.map fun l => answer l.job)).direct answer

end Task

/-! ## Batches -/

variable {K V E J : Type} [DecidableEq K]

/-- asks for every key of a batch; the callers' numbers -/
def askAll (c : Setup) (st : St K V E J) : List (Load K J) → St K V E J × List Nat
  | [] => (st, [])
  | l :: rest =>
    let (st, id) := st.fetch c l.key l.ttl l.job
    let (st, ids) := askAll c st rest
    (st, id :: ids)

/-- what the callers of a batch come away with, once all of that is known -/
def settledAll? (st : St K V E J) : List Nat → Option (List (Settled V E))
  | [] => some []
  | id :: rest => do
    let answer ← st.settled? id
    let answers ← settledAll? st rest
    return answer :: answers

def leaveAll (st : St K V E J) (ids : List Nat) : St K V E J := ids.foldl St.leave st

end ChainBridge.Cache
