/-
How a fill ends on a clock that has an end.

A value lives until an instant that the clock must be able to name. A fill whose value would live longer makes room for
it, and crashes when it stores it. One that finds no room turns the value away and ends like any other. Where the clock
ends depends on how long it had been running when the cache was made, so the first instant that it can not name
(`horizon`) is given with each fill that ends.
-/
import ChainBridge.Cache.Machine

namespace ChainBridge.Cache

/-- the horizon of a cache that was made one second after its clock had started; a clock counts 2^63 seconds -/
def endOfTime : Nat := 0x7FFFFFFFFFFFFFFF * 1000

namespace St

variable {K V E J : Type} [DecidableEq K] [Footprint K] [Footprint V]

/-- makes room for a value that can not be kept, and crashes -/
def overrun (c : Setup) (st : St K V E J) (fill : Nat) (key : K) (v : V) : St K V E J :=
  (st.crash fill).squeeze c key v

/-- whether a value of a fill can be kept as long as it is to live, or is turned away before that matters -/
def isKeepable (c : Setup) (horizon : Nat) (st : St K V E J) (f : Fill K V E J) (v : V) : Bool :=
  decide (st.now + f.ttl.getD c.policy.defaultTtl < horizon) ||
    ((st.store.release f.key f.id).makeRoom c.policy.maxSize st.now (entrySize f.key v) f.key).2.isNone

/-- ends a running fill with what it came to, or with nothing if it crashed -/
def conclude (c : Setup) (horizon : Nat) (st : St K V E J) (fill : Nat) (outcome : Option (Except E V)) : St K V E J :=
  match outcome with
  | none => st.crash fill
  | some (.error e) => st.finish c fill (.error e)
  | some (.ok v) =>
    match st.fill? fill with
    | some f => if st.isKeepable c horizon f v then st.finish c fill (.ok v) else st.overrun c fill f.key v
    | none => st

/-- ends a running fill, and tells its callers at once -/
def land (c : Setup) (horizon : Nat) (st : St K V E J) (fill : Nat) (outcome : Option (Except E V)) : St K V E J :=
  (st.conclude c horizon fill outcome).tell fill

end St

end ChainBridge.Cache
