/-
The life of a bridge: from running to shut down, once.

Whoever calls for shutdown first wins: it signals every receiver, takes hold of the sweeper and waits until that has
ended, unless its caller leaves it there. All other calls return at once. The sweeper is a receiver itself. It goes on
from one sweep to the next until it finds the signal, or until there is nobody left to send one; between its sweeps it
waits, and only then does it look. A receiver hears the signals that are sent after it subscribed; when the bridge
itself is gone, nothing more will come.

Each step of a call, of the sweeper and of a receiver is an act of its own, as is whatever the repository does to its
cache, so every interleaving of them is a run.
-/
import ChainBridge.Cache.Machine

namespace ChainBridge.Bridge

/-- how far a call for shutdown has come -/
inductive CallStage where
  /-- it came first -/
  | won
  /-- it has sent the signal -/
  | signalled
  /-- it waits for the sweeper -/
  | waiting
  | returned
  /-- its caller left while it was waiting -/
  | left
  /-- it came later and returned without effect -/
  | ignored
deriving DecidableEq, Repr

namespace CallStage

/-- whether a call still has something to do -/
def isUnderWay : CallStage → Bool
  | .won | .signalled | .waiting => true
  | _ => false

end CallStage

inductive Sweeper where
  /-- there is none -/
  | off
  /-- its task has not begun -/
  | starting
  /-- it waits for the next sweep or for the signal -/
  | waiting
  /-- it is about to sweep -/
  | sweeping
  | ended
deriving DecidableEq, Repr

/-- whether there may be sweeps to come -/
def Sweeper.isAlive : Sweeper → Bool
  | .starting | .waiting | .sweeping => true
  | _ => false

structure Receiver where
  id : String
  /-- signals that it has not taken yet -/
  inbox : Nat
  /-- signals that it has taken -/
  heard : Nat
deriving DecidableEq, Repr

namespace Receiver

/-- a signal is sent to it -/
def getsSignal (r : Receiver) : Receiver := { r with inbox := r.inbox + 1 }

/-- it takes a signal -/
def takesSignal (r : Receiver) : Receiver := { r with inbox := r.inbox - 1, heard := r.heard + 1 }

end Receiver

inductive Heard where
  | signal
  | empty
  | closed
  | unknown
deriving DecidableEq, Repr

structure Life where
  shutDown : Bool
  sweeper : Sweeper
  /-- signals that the sweeper has not taken yet -/
  letters : Nat
  /-- whether the bridge still holds on to the sweeper's task -/
  held : Bool
  /-- how many signals were sent -/
  signals : Nat
  receivers : List Receiver
  /-- in the order in which they came -/
  calls : List CallStage
  /-- whether the bridge itself is gone -/
  gone : Bool
deriving DecidableEq, Repr

namespace Life

def new (sweeps : Bool) : Life := ⟨false, if sweeps then .starting else .off, 0, sweeps, 0, [], [], false⟩

def move (l : Life) (id : Nat) (stage : CallStage) : Life := { l with calls := l.calls.set id stage }

/-! ## Shutdown -/

/-- a call for shutdown, which is numbered by those before it; only the first one wins -/
def call (l : Life) : Life :=
  if l.gone then l
  else if l.shutDown then { l with calls := l.calls ++ [.ignored] }
  else { l with shutDown := true, calls := l.calls ++ [.won] }

/-- the winner signals the sweeper and every receiver -/
def signal (l : Life) (id : Nat) : Life :=
  if l.calls[id]? = some .won then
    { l.move id .signalled with
      signals := l.signals + 1
      letters := if l.sweeper.isAlive then l.letters + 1 else l.letters
      receivers := l.receivers.map Receiver.getsSignal }
  else l

/-- the winner takes hold of the sweeper, if there is one -/
def take (l : Life) (id : Nat) : Life :=
  if l.calls[id]? = some .signalled then
    if l.held then { l.move id .waiting with held := false } else l.move id .returned
  else l

/-- the winner returns when the sweeper has ended -/
def conclude (l : Life) (id : Nat) : Life :=
  if l.calls[id]? = some .waiting ∧ l.sweeper = .ended then l.move id .returned else l

/-- the caller of the winner leaves; the sweeper goes on -/
def leave (l : Life) (id : Nat) : Life := if l.calls[id]? = some .waiting then l.move id .left else l

/-! ## The sweeper -/

/-- its task begins -/
def begin (l : Life) : Life := if l.sweeper = .starting then { l with sweeper := .waiting } else l

/-- it is time for the next sweep -/
def tick (l : Life) : Life := if l.sweeper = .waiting then { l with sweeper := .sweeping } else l

/-- it has swept -/
def swept (l : Life) : Life := if l.sweeper = .sweeping then { l with sweeper := .waiting } else l

/-- it finds the signal, or that nobody is left to send one, and ends -/
def notice (l : Life) : Life :=
  if l.sweeper = .waiting ∧ (l.letters ≠ 0 ∨ l.gone) then { l with sweeper := .ended } else l

/-- its task ends for a reason of its own: it crashed or was dropped, or its cache is gone -/
def stop (l : Life) : Life := if l.sweeper.isAlive then { l with sweeper := .ended } else l

/-- a call for shutdown that nothing comes between but the end of the sweeper -/
def shutdown (l : Life) : Life :=
  let id := l.calls.length
  (((((l.call.signal id).take id).begin).swept).notice).conclude id

/-! ## Receivers -/

def subscribe (l : Life) (id : String) : Life :=
  if l.gone then l else { l with receivers := l.receivers.filter (fun r => r.id != id) ++ [⟨id, 0, 0⟩] }

def unsubscribe (l : Life) (id : String) : Life := { l with receivers := l.receivers.filter fun r => r.id != id }

/-- what a receiver finds when it looks once -/
def listen (l : Life) (id : String) : Life × Heard :=
  match l.receivers.find? fun r => r.id == id with
  | none => (l, .unknown)
  | some r =>
    if r.inbox = 0 then (l, if l.gone then .closed else .empty)
    else ({ l with receivers := l.receivers.map fun r => if r.id == id then r.takesSignal else r }, .signal)

/-- the bridge goes, unless a call for shutdown is still under way -/
def drop (l : Life) : Life :=
  if l.calls.any CallStage.isUnderWay then l else { l with gone := true, held := false }

end Life

/-! ## Runs -/

/-- a life and the cache that is swept in it -/
structure St (K V E J : Type) where
  life : Life
  cache : Cache.St K V E J

def St.new {K V E J : Type} [DecidableEq K] (sweeps : Bool) : St K V E J := ⟨Life.new sweeps, .new⟩

inductive Act (K V E J : Type) where
  | call
  | signal (call : Nat)
  | take (call : Nat)
  | conclude (call : Nat)
  | leave (call : Nat)
  | begin
  | tick
  | sweep
  | notice
  | stop
  | subscribe (id : String)
  | unsubscribe (id : String)
  | listen (id : String)
  | drop
  /-- the repository does something to its cache -/
  | use (act : Cache.Act K V E J)

variable {K V E J : Type}

/-- what an act does to a life -/
def Life.step (l : Life) : Act K V E J → Life
  | .call => l.call
  | .signal id => l.signal id
  | .take id => l.take id
  | .conclude id => l.conclude id
  | .leave id => l.leave id
  | .begin => l.begin
  | .tick => l.tick
  | .sweep => l.swept
  | .notice => l.notice
  | .stop => l.stop
  | .subscribe id => l.subscribe id
  | .unsubscribe id => l.unsubscribe id
  | .listen id => (l.listen id).1
  | .drop => l.drop
  | .use _ => l

/-- what an act does to the cache, if anything -/
def Act.effect? (l : Life) : Act K V E J → Option (Cache.Act K V E J)
  | .sweep => if l.sweeper = .sweeping then some .purge else none
  | .use act => some act
  | _ => none

variable [DecidableEq K] [Footprint K] [Footprint V]

def step (c : Cache.Setup) (st : St K V E J) (act : Act K V E J) : St K V E J :=
  ⟨st.life.step act, ((act.effect? st.life).map (Cache.step c st.cache)).getD st.cache⟩

def run (c : Cache.Setup) (st : St K V E J) (acts : List (Act K V E J)) : St K V E J := acts.foldl (step c) st

end ChainBridge.Bridge
