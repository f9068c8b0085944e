/-
What a cache tells about itself.
-/
import ChainBridge.Cache.Store
import ChainBridge.Json.Basic

namespace ChainBridge.Cache

structure Stats where
  counters : Counters
  entries : Nat
  pendingFills : Nat
  occupied : Nat
  maxSize : Nat
deriving DecidableEq, Repr

def Store.stats {K V : Type} (s : Store K V) (maxSize : Nat) : Stats :=
  ⟨s.counters, s.entries.length, s.pending.length, s.occupied, maxSize⟩

namespace Stats

/-- the part of lookups that were answered without the node; words of 64 bits -/
def hitRate (hits misses coalesced : UInt64) : Float :=
  let served := hits + coalesced
  let total := served + misses
  if total == 0 then 0.0 else served.toFloat / total.toFloat

def toJson (s : Stats) : Json :=
  .object [
    ("hits", .natural s.counters.hits),
    ("misses", .natural s.counters.misses),
    ("coalesced", .natural s.counters.coalesced),
    ("inserts", .natural s.counters.inserts),
    ("evictions", .natural s.counters.evictions),
    ("expirations", .natural s.counters.expirations),
    ("rejected", .natural s.counters.rejected),
    ("entries", .natural s.entries),
    ("pending_fetches", .natural s.pendingFills),
    ("occupied_bytes", .natural s.occupied),
    ("max_size_bytes", .natural s.maxSize)]

end Stats

end ChainBridge.Cache
