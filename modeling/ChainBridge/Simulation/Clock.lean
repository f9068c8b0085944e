/-
A cache on a clock that stands still while anything can happen and then jumps to the next instant at which something
is due.

At one instant every caller goes as far as it can, in the order in which callers stand; then every queued fill begins,
in the order in which they were asked for, and one that takes no time ends on the spot; and so on until all are
waiting. Fills that are due together end in the order in which they began, before any caller goes on. A fill that would
keep its value beyond the end of the clock crashes when it stores it.
-/
import ChainBridge.Cache.Landing
import ChainBridge.Cache.Task

namespace ChainBridge.Simulation

open Cache

/-- how a fill goes -/
structure Course (V E : Type) where
  delay : Nat
  /-- what it comes to; nothing, if it crashes -/
  outcome : Option (Except E V)
  /-- what is counted when it ends -/
  counted : List Metrics.Counter

/-- the cache, the world that its fills ask, and how its keys are shown -/
structure Rig (K V E J W : Type) where
  setup : Setup
  /-- what happens when a fill begins: how it will go is decided then -/
  start : W → J → W × Course V E
  debug : K → String

/-- a fill under way and when it ends -/
structure Flight (V E : Type) where
  due : Nat
  fill : Nat
  course : Course V E

structure Sweeper where
  next : Nat
  interval : Nat

inductive Phase (K V E J A : Type) where
  | early (task : Task K V E J A)
  | waiting (tickets : List Nat) (next : List (Settled V E) → Task K V E J A)
  | done (answer : A)
  | gaveUp

/-- a caller, when it starts and when it loses patience -/
structure Client (K V E J A : Type) where
  name : String
  start : Nat
  giveUp : Option Nat
  /-- how many keys it asks for at most -/
  loads : Nat
  phase : Phase K V E J A

structure Sim (K V E J W A : Type) where
  cache : St K V E J
  world : W
  flights : List (Flight V E)
  sweepers : List Sweeper
  clients : List (Client K V E J A)
  /-- how many fills have begun -/
  begun : Nat
  warnings : List String

def Client.isOver {K V E J A : Type} (c : Client K V E J A) : Bool :=
  match c.phase with
  | .done _ | .gaveUp => true
  | _ => false

namespace Sim

variable {K V E J W A : Type} [DecidableEq K] [Footprint K] [Footprint V]

def new (world : W) : Sim K V E J W A := ⟨St.new, world, [], [], [], 0, []⟩

def now (s : Sim K V E J W A) : Nat := s.cache.now

def warn (s : Sim K V E J W A) (text : String) : Sim K V E J W A := { s with warnings := s.warnings ++ [text] }

/-! ## Callers -/

/-- lets a task go as far as it can -/
def follow (r : Rig K V E J W) (s : Sim K V E J W A) : Task K V E J A → Sim K V E J W A × Phase K V E J A
  | .done a => (s, .done a)
  | .ask loads next =>
    let (cache, tickets) := askAll r.setup s.cache loads
    match settledAll? cache tickets with
    | some answers => follow r { s with cache := leaveAll cache tickets } (next answers)
    | none => ({ s with cache := cache }, .waiting tickets next)

/-- lets one caller go as far as it can -/
def poll (r : Rig K V E J W) (s : Sim K V E J W A) (c : Client K V E J A) : Sim K V E J W A × Client K V E J A :=
  let (s, phase) := match c.phase with
    | .early task => if c.start ≤ s.now then s.follow r task else (s, .early task)
    | .waiting tickets next =>
      match settledAll? s.cache tickets with
      | some answers => { s with cache := leaveAll s.cache tickets }.follow r (next answers)
      | none => (s, .waiting tickets next)
    | phase => (s, phase)
  match phase, c.giveUp with
  | .waiting tickets next, some limit =>
    if limit ≤ s.now then ({ s with cache := leaveAll s.cache tickets }, { c with phase := .gaveUp })
    else (s, { c with phase := .waiting tickets next })
  | phase, _ => (s, { c with phase := phase })

/-- lets every caller go as far as it can -/
def pollAll (r : Rig K V E J W) (s : Sim K V E J W A) : Sim K V E J W A :=
  let (s, clients) := s.clients.foldl (fun (s, polled) c =>
    let (s, c) := s.poll r c
    (s, polled ++ [c])) (s, [])
  { s with clients := clients }

/-! ## Fills -/

/-- ends a fill -/
def land (r : Rig K V E J W) (s : Sim K V E J W A) (fill : Nat) (course : Course V E) : Sim K V E J W A :=
  let cache := { s.cache with metrics := course.counted.foldl (fun r counter => r.add counter 1) s.cache.metrics }
  let s := { s with cache := cache.land r.setup endOfTime fill course.outcome }
  if course.outcome.isNone then s.warn "cache fill task ended without an outcome, releasing pending entry" else s

/-- begins a fill; one that takes no time ends at once -/
def launch (r : Rig K V E J W) (s : Sim K V E J W A) (fill : Nat) (job : J) : Sim K V E J W A :=
  let (world, course) := r.start s.world job
  let s := { s with cache := s.cache.begin fill, world := world, begun := s.begun + 1 }
  if course.delay = 0 then s.land r fill course
  else { s with flights := s.flights ++ [⟨s.now + course.delay, fill, course⟩] }

/-! ## One instant -/

/-- callers and fills in turn, until all are waiting; a round in which a fill begins is a load of some caller -/
def settleRounds (r : Rig K V E J W) : Nat → Sim K V E J W A → Sim K V E J W A
  | 0, s => s
  | rounds + 1, s =>
    let s := s.pollAll r
    match s.cache.queued with
    | [] => s
    | jobs => settleRounds r rounds (jobs.foldl (fun s j => s.launch r j.1 j.2) s)

def loadsLeft (s : Sim K V E J W A) : Nat := s.clients.foldl (fun n c => n + c.loads) 0

def settle (r : Rig K V E J W) (s : Sim K V E J W A) : Sim K V E J W A :=
  settleRounds r (s.cache.queued.length + s.loadsLeft + 2) s

/-- how long a fill may run before sweepers warn about it -/
def patience : Nat := 120000

/-- one sweep, and a warning for each fill that has been running for too long -/
def sweep (r : Rig K V E J W) (s : Sim K V E J W A) : Sim K V E J W A :=
  let (cache, _) := s.cache.purge r.setup
  (cache.store.staleFills patience cache.now).foldl (fun s stale =>
    s.warn ("cache fill pending for too long: key=" ++ r.debug stale.1 ++ " elapsed_secs=" ++
      toString (stale.2 / 1000))) { s with cache := cache }

/-- what is due at this instant: first fills, then sweeps -/
def ring (r : Rig K V E J W) (s : Sim K V E J W A) : Sim K V E J W A :=
  let now := s.now
  let (due, later) := s.flights.partition fun f => decide (f.due ≤ now)
  let s := due.foldl (fun s f => s.land r f.fill f.course) { s with flights := later }
  let s := (s.sweepers.filter fun w => decide (w.next ≤ now)).foldl (fun s _ => s.sweep r) s
  { s with sweepers := s.sweepers.map fun w => if w.next ≤ now then { w with next := now + w.interval } else w }

/-! ## From instant to instant -/

/-- instants at which callers or fills have something to do -/
def appointments (s : Sim K V E J W A) : List Nat :=
  s.flights.map (·.due) ++ s.clients.flatMap fun c =>
    match c.phase with
    | .early _ => [c.start]
    | .waiting .. => c.giveUp.toList
    | _ => []

/-- the earliest of the instants that are still to come -/
def earliest (now : Nat) (instants : List Nat) : Option Nat := (instants.filter fun t => decide (now < t)).min?

def jump (s : Sim K V E J W A) (t : Nat) : Sim K V E J W A := { s with cache := s.cache.advance (t - s.now) }

/-- runs up to an instant and through it; every leg takes at least a millisecond -/
def legsUntil (r : Rig K V E J W) (target : Nat) : Nat → Sim K V E J W A → Sim K V E J W A
  | 0, s => s
  | legs + 1, s =>
    match earliest s.now (s.appointments ++ s.sweepers.map (·.next)) with
    | some t =>
      if t ≤ target then legsUntil r target legs (((s.jump t).ring r).settle r) else s.jump target
    | none => s.jump target

def runUntil (r : Rig K V E J W) (target : Nat) (s : Sim K V E J W A) : Sim K V E J W A :=
  legsUntil r target (target - s.now + 1) s

/-- runs until a condition holds or nothing is left to wait for; each leg ends a fill, starts a caller or loses one -/
def legsWhile (r : Rig K V E J W) (goOn : Sim K V E J W A → Bool) : Nat → Sim K V E J W A → Sim K V E J W A
  | 0, s => s
  | legs + 1, s =>
    if goOn s then
      match earliest s.now s.appointments with
      | some t => legsWhile r goOn legs (s.runUntil r t)
      | none => s
    else s

def runWhile (r : Rig K V E J W) (goOn : Sim K V E J W A → Bool) (s : Sim K V E J W A) : Sim K V E J W A :=
  legsWhile r goOn (s.flights.length + 2 * s.clients.length + s.loadsLeft + 1) s

/-! ## What an operator does -/

/-- adds callers, and lets the instant run its course -/
def enter (r : Rig K V E J W) (s : Sim K V E J W A) (clients : List (Client K V E J A)) : Sim K V E J W A :=
  { s with clients := s.clients ++ clients }.settle r

def client? (s : Sim K V E J W A) (name : String) : Option (Client K V E J A) := s.clients.find? fun c => c.name == name

/-- runs until a caller is done -/
def await (r : Rig K V E J W) (s : Sim K V E J W A) (name : String) : Sim K V E J W A :=
  s.runWhile r fun s =>
    match s.client? name with
    | some c => !c.isOver
    | none => false

/-- takes a caller off the list, and off the cache if it still waits -/
def dismiss (s : Sim K V E J W A) (name : String) : Sim K V E J W A :=
  let cache := match s.client? name with
    | some ⟨_, _, _, _, .waiting tickets _⟩ => leaveAll s.cache tickets
    | _ => s.cache
  { s with cache := cache, clients := s.clients.filter fun c => c.name != name }

/-- starts a sweeper, unless sweeping is turned off -/
def startSweeper (r : Rig K V E J W) (s : Sim K V E J W A) : Sim K V E J W A × Bool :=
  let interval := r.setup.policy.sweepInterval
  if interval = 0 then (s, false)
  else ({ s with sweepers := s.sweepers ++ [⟨s.now + interval, interval⟩] }, true)

/-- stops every sweeper; how many there were -/
def stopSweepers (s : Sim K V E J W A) : Sim K V E J W A × Nat := ({ s with sweepers := [] }, s.sweepers.length)

/-- hands over the warnings given so far, sorted -/
def takeWarnings (s : Sim K V E J W A) : Sim K V E J W A × List String :=
  ({ s with warnings := [] }, Metrics.sortLines s.warnings)

end Sim

end ChainBridge.Simulation
