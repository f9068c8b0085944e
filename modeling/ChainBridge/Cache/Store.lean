/-
The books of a cache: stored entries, the order in which they expire, a marker for each key that is being filled, the
bytes in use and the counters.

An entry is found by its key and stands a second time in the index, which is ordered by expiry and then by insertion.
Every entry is charged for its key, its value and a fixed overhead. Insertion takes out the entry it replaces, then as
many entries from the front of the index as are needed to make room, passing over keys that are being filled; if that
does not do, the new value is turned away and nothing else is removed. An entry is expired from the instant of its
expiry on, for `lookup`, `purge` and `insert` alike.
-/
import ChainBridge.Footprint

namespace ChainBridge.Cache

/-- a stored value -/
structure Entry (K V : Type) where
  key : K
  value : V
  insertedAt : Nat
  expiresAt : Nat
  seq : Nat
  size : Nat
deriving DecidableEq, Repr

/-- where a key stands in the order of expiry -/
structure Place (K : Type) where
  expiresAt : Nat
  seq : Nat
  key : K
deriving DecidableEq, Repr

/-- says that a key is being filled, by which fill and since when -/
structure Marker (K : Type) where
  key : K
  fill : Nat
  startedAt : Nat
deriving DecidableEq, Repr

structure Counters where
  hits : Nat
  misses : Nat
  coalesced : Nat
  inserts : Nat
  evictions : Nat
  expirations : Nat
  rejected : Nat
deriving DecidableEq, Repr

def Counters.zero : Counters := ⟨0, 0, 0, 0, 0, 0, 0⟩

structure Store (K V : Type) where
  entries : List (Entry K V)
  /-- ordered by expiry, then by insertion -/
  index : List (Place K)
  pending : List (Marker K)
  occupied : Nat
  nextSeq : Nat
  nextFill : Nat
  counters : Counters
deriving DecidableEq, Repr

/-- whether an entry that expires at an instant is served no more -/
def isExpired (expiresAt now : Nat) : Bool := decide (expiresAt ≤ now)

/-- what an entry is charged -/
def entrySize {K V : Type} [Footprint K] [Footprint V] (key : K) (value : V) : Nat :=
  Footprint.bytes key + Footprint.bytes value + Footprint.overhead

namespace Store

variable {K V : Type} [DecidableEq K]

def empty : Store K V := ⟨[], [], [], 0, 0, 0, Counters.zero⟩

def find? (s : Store K V) (key : K) : Option (Entry K V) := s.entries.find? fun e => decide (e.key = key)

def marker? (s : Store K V) (key : K) : Option (Marker K) := s.pending.find? fun m => decide (m.key = key)

def isPending (s : Store K V) (key : K) : Bool := (s.marker? key).isSome

/-! ## Removal -/

/-- takes a key out of the entries alone -/
def drop (s : Store K V) (key : K) : Store K V :=
  match s.find? key with
  | none => s
  | some e =>
    { s with entries := s.entries.filter fun e => decide (e.key ≠ key), occupied := s.occupied - e.size }

/-- takes a place out of the index alone -/
def unlist (s : Store K V) (expiresAt seq : Nat) : Store K V :=
  { s with index := s.index.filter fun p => decide (¬(p.expiresAt = expiresAt ∧ p.seq = seq)) }

/-- removes the entry of a key, if there is one -/
def erase (s : Store K V) (key : K) : Store K V :=
  match s.find? key with
  | none => s
  | some e => (s.drop key).unlist e.expiresAt e.seq

/-- removes every entry; keys that are being filled stay marked -/
def clear (s : Store K V) : Store K V := { s with entries := [], index := [], occupied := 0 }

/-- removes what has expired from the front of an index; how many entries that were -/
def purgeFrom (now : Nat) : List (Place K) → Store K V → Store K V × Nat
  | [], s => ({ s with index := [] }, 0)
  | p :: rest, s =>
    if isExpired p.expiresAt now then
      let found := (s.find? p.key).isSome
      let (s, n) := purgeFrom now rest (s.drop p.key)
      (s, if found then n + 1 else n)
    else ({ s with index := p :: rest }, 0)

/-- removes every expired entry; how many those were -/
def purge (s : Store K V) (now : Nat) : Store K V × Nat :=
  let (s, n) := purgeFrom now s.index s
  ({ s with counters := { s.counters with expirations := s.counters.expirations + n } }, n)

/-! ## Lookup -/

inductive Lookup (V : Type) where
  | hit (value : V)
  /-- the entry had expired and was removed -/
  | expired
  | miss
deriving DecidableEq, Repr

def lookup (s : Store K V) (key : K) (now : Nat) : Store K V × Lookup V :=
  match s.find? key with
  | none => (s, .miss)
  | some e =>
    if isExpired e.expiresAt now then
      let s := s.erase key
      ({ s with counters := { s.counters with expirations := s.counters.expirations + 1 } }, .expired)
    else (s, .hit e.value)

/-! ## Making room -/

/-- the places to empty, front first, until `needed` more bytes fit, and the bytes then in use -/
def plan (s : Store K V) (needed max : Nat) : List (Place K) → Nat → List (Place K) × Nat
  | [], projected => ([], projected)
  | p :: rest, projected =>
    if projected + needed ≤ max then ([], projected)
    else if s.isPending p.key then s.plan needed max rest projected
    else
      match s.find? p.key with
      | none => s.plan needed max rest projected
      | some e =>
        let (victims, left) := s.plan needed max rest (projected - e.size)
        (p :: victims, left)

/-- the places to empty, unless room cannot be made -/
def planEviction (s : Store K V) (needed max : Nat) : Option (List (Place K)) :=
  let (victims, left) := s.plan needed max s.index s.occupied
  if left + needed ≤ max then some victims else none

/-- how many of the entries that made room were alive, and how many had expired -/
structure Freed where
  evicted : Nat
  expired : Nat
deriving DecidableEq, Repr

/-- empties places -/
def evict (now : Nat) : List (Place K) → Store K V → Store K V × Freed
  | [], s => (s, ⟨0, 0⟩)
  | p :: rest, s =>
    match s.find? p.key with
    | none => evict now rest (s.unlist p.expiresAt p.seq)
    | some e =>
      let (s, freed) := evict now rest ((s.drop p.key).unlist p.expiresAt p.seq)
      if isExpired e.expiresAt now then (s, { freed with expired := freed.expired + 1 })
      else (s, { freed with evicted := freed.evicted + 1 })

/-- takes out the entry of a key and makes room for one of the given size; `none` if there can be no room -/
def makeRoom (s : Store K V) (max now size : Nat) (key : K) : Store K V × Option Freed :=
  let s := s.erase key
  match (if size ≤ max then s.planEviction size max else none) with
  | none => ({ s with counters := { s.counters with rejected := s.counters.rejected + 1 } }, none)
  | some victims =>
    let (s, freed) := evict now victims s
    let c := s.counters
    ({ s with
        counters := { c with
          evictions := c.evictions + freed.evicted, expirations := c.expirations + freed.expired }
        nextSeq := s.nextSeq + 1 }, some freed)

/-! ## Insertion -/

/-- puts a place where it belongs -/
def listPlace (p : Place K) : List (Place K) → List (Place K)
  | [] => [p]
  | q :: rest =>
    if p.expiresAt < q.expiresAt ∨ (p.expiresAt = q.expiresAt ∧ p.seq ≤ q.seq) then p :: q :: rest
    else q :: listPlace p rest

/-- stores a value under the sequence number reached last -/
def put (s : Store K V) (key : K) (value : V) (now ttl size : Nat) : Store K V :=
  { s with
    entries := s.entries ++ [⟨key, value, now, now + ttl, s.nextSeq, size⟩]
    index := listPlace ⟨now + ttl, s.nextSeq, key⟩ s.index
    occupied := s.occupied + size
    counters := { s.counters with inserts := s.counters.inserts + 1 } }

/-- stores a value if room can be made for it, and says what that took -/
def insert [Footprint K] [Footprint V] (s : Store K V) (max now : Nat) (key : K) (value : V) (ttl : Nat) :
    Store K V × Option Freed :=
  let size := entrySize key value
  match s.makeRoom max now size key with
  | (s, none) => (s, none)
  | (s, some freed) => (s.put key value now ttl size, some freed)

/-! ## Fills -/

/-- the answer to a caller that asks for a key -/
inductive Admission (V : Type) where
  | hit (value : V)
  /-- wait for a fill in progress -/
  | join (fill : Nat)
  /-- start a fill -/
  | lead (fill : Nat)
deriving DecidableEq, Repr

/-- what a caller that asks for a key is told; whether it met an expired entry -/
def ask (s : Store K V) (key : K) (now : Nat) : Store K V × Admission V × Bool :=
  match s.lookup key now with
  | (s, .hit v) => ({ s with counters := { s.counters with hits := s.counters.hits + 1 } }, .hit v, false)
  | (s, found) =>
    let expired := match found with
      | .expired => true
      | _ => false
    match s.marker? key with
    | some m =>
      ({ s with counters := { s.counters with coalesced := s.counters.coalesced + 1 } }, .join m.fill, expired)
    | none =>
      let fill := s.nextFill + 1
      ({ s with
          counters := { s.counters with misses := s.counters.misses + 1 }
          nextFill := fill
          pending := s.pending ++ [⟨key, fill, now⟩] }, .lead fill, expired)

/-- unmarks a key, if the marker belongs to the fill -/
def release (s : Store K V) (key : K) (fill : Nat) : Store K V :=
  match s.marker? key with
  | none => s
  | some m =>
    if m.fill = fill then { s with pending := s.pending.filter fun m => decide (m.key ≠ key) } else s

/-- fills that have been running for longer than a threshold, and for how long -/
def staleFills (s : Store K V) (threshold now : Nat) : List (K × Nat) :=
  s.pending.filterMap fun m =>
    if threshold < now - m.startedAt then some (m.key, now - m.startedAt) else none

end Store

end ChainBridge.Cache
