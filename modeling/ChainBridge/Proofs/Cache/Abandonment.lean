/-
When the task of a fill is gone, its key is free again, unless the task was dropped before it began.

A fill lets go of its key when it comes to an outcome, when it crashes and when its task is dropped while it is running.
A task that is dropped in the queue has not begun to watch over its key: the key stays marked, now and in all that
follows, and whoever asks for it joins a fill that is no more.
- `deserted_iff_dropped`: a key is marked with a fill that is gone if and only if the task of that fill was dropped in
  the queue; a key without such a fill is filled anew by the next caller that finds no live entry, and a key with one
  never is.
- `dropped_deserts_key`: the shortest run that leaves a key so.
-/
import Mathlib
import ChainBridge.Proofs.Cache.Runs
import ChainBridge.Proofs.Cache.Fills
import ChainBridge.Proofs.Cache.Fates
import ChainBridge.Proofs.Cache.SingleFlight
import ChainBridge.Proofs.Cache.Callers

namespace ChainBridge.Cache

variable {K V E J : Type} [DecidableEq K]

/-- whether a key is marked with a fill that is no longer under way -/
def St.Deserted (st : St K V E J) (key : K) (fill : Nat) : Prop :=
  st.store.filling? key = some fill ∧ ∀ f ∈ st.fills, f.id = fill → f.stage.isUnderWay = false

theorem Single.deserted_iff {st : St K V E J} (h : Single st) {key : K} {fill : Nat} :
    st.Deserted key fill ↔ ∃ f, st.fill? fill = some f ∧ f.key = key ∧ f.stage = .dropped := by
  constructor
  · rintro ⟨hmarked, hgone⟩
    obtain ⟨f, hf, hh, hk, rfl⟩ := St.mem_holders.1 (h.filling?_eq_some_iff.1 hmarked)
    refine ⟨f, fill?_of_mem h.ids hf, hk, ?_⟩
    by_contra hno
    have hway := hgone f hf rfl
    rw [← Stage.holds_eq_isUnderWay hno, hh] at hway
    exact absurd hway (by simp)
  · rintro ⟨f, hf, rfl, hdropped⟩
    obtain ⟨hmem, rfl⟩ := fill?_some hf
    refine ⟨h.filling?_of_holds hmem (by rw [hdropped]; rfl), fun g hg hid => ?_⟩
    rw [h.eq_of_id hg hmem hid, hdropped]
    rfl

variable [Footprint K] [Footprint V]

/-- a caller that joins a fill that is gone starts nothing and comes away with nothing -/
theorem fetch_dropped {c : Setup} {acts : List (Act K V E J)} {key : K} {fill : Nat} (h : Dropped c acts key fill)
    (ttl : Option Nat) (job : J)
    (hno : ∀ v, ((run c .new acts).store.lookup key (run c .new acts).now).2 ≠ .hit v) :
    ((run c .new acts).fetch c key ttl job).1.fills = (run c .new acts).fills ∧
    (((run c .new acts).fetch c key ttl job).1.resume (run c .new acts).nextCaller).2 = some .abandoned := by
  obtain ⟨f, hf, hk, hdropped⟩ := dropped_iff.1 h
  have hmarked := ((run_single c acts).deserted_iff.2 ⟨f, hf, hk, hdropped⟩).1
  obtain ⟨ticket, hadmits, hcallers⟩ := fetch_admits c (run c .new acts) key ttl job
  have hnodup := run_callers_nodup c (acts ++ [.fetch key ttl job])
  rw [run_snoc, step] at hnodup
  generalize run c .new acts = st at *
  generalize (st.fetch c key ttl job).1 = st' at *
  generalize hfills : st'.fills = fills at hadmits
  generalize st'.store.marks = marks at hadmits
  cases hadmits with
  | hit v hv => exact absurd hv (hno v)
  | lead _ hn => exact absurd (hmarked.symm.trans hn) (by simp)
  | join fill' _ hs =>
    obtain rfl : fill = fill' := Option.some.inj (hmarked.symm.trans hs)
    have hmem : ⟨st.nextCaller, key, .awaiting fill⟩ ∈ st'.callers := by
      rw [hcallers]
      exact List.mem_append_right _ (List.mem_singleton_self _)
    have hsettled : st'.settled? st.nextCaller = some .abandoned := by
      rw [settled?_of_mem hnodup hmem]
      simp only [fill?_congr hfills, hf, Option.bind_some, hdropped]
      rfl
    exact ⟨rfl, resume_of_settled hsettled⟩

/-- **Deserted keys.** After any sequence of acts, a key is marked with a fill that is no longer under way if and only
if the task of that fill was dropped in the queue; every other end of a fill frees its key. The next caller that finds
no live entry starts a fill, or joins one that is under way, for every key without such a fill. For a key with one,
whatever has been done since, the caller starts nothing and comes away with nothing. -/
theorem deserted_iff_dropped (c : Setup) (acts : List (Act K V E J)) :
    let st : St K V E J := run c .new acts
    (∀ key fill, st.Deserted key fill ↔ Dropped c acts key fill) ∧
    (∀ key ttl job, (∀ v, (st.store.lookup key st.now).2 ≠ .hit v) → (∀ fill, ¬Dropped c acts key fill) →
      (st.fetch c key ttl job).1.fills =
        if st.isFilling key then st.fills else st.fills ++ [⟨st.store.nextFill + 1, key, ttl, job, .queued⟩]) ∧
    ∀ key fill more ttl job, Dropped c acts key fill →
      let later := run c .new (acts ++ more)
      (∀ v, (later.store.lookup key later.now).2 ≠ .hit v) →
      (later.fetch c key ttl job).1.fills = later.fills ∧
      ((later.fetch c key ttl job).1.resume later.nextCaller).2 = some .abandoned := by
  intro st
  have hs : Single st := run_single c acts
  refine ⟨fun key fill => hs.deserted_iff.trans dropped_iff.symm, fun key ttl job hno hd => ?_, ?_⟩
  · exact hs.fetch_fills c (run_undropped c acts hd) ttl job hno
  · intro key fill more ttl job hd later hno
    exact fetch_dropped (Took.append hd more) ttl job hno

/-- a caller leaves a job, and its task is dropped before it begins -/
def unbegun : List (Act Nat Nat String Unit) := [.fetch 7 none (), .discard 1]

/-- it is not so that a marked key always has a fill under way -/
theorem dropped_deserts_key :
    ¬∀ (acts : List (Act Nat Nat String Unit)) (key fill : Nat),
      (run .plain .new acts).store.filling? key = some fill →
      ∃ f ∈ (run .plain .new acts).fills, f.id = fill ∧ f.stage.isUnderWay = true := by
  intro hall
  obtain ⟨f, hf, -, hway⟩ := hall unbegun 7 1 rfl
  obtain rfl : f = ⟨1, 7, none, (), .dropped⟩ := List.mem_singleton.1 hf
  exact absurd hway Bool.false_ne_true

/-- from then on callers of the key come away with nothing, also when everything is cleared and swept out -/
theorem dropped_abandons :
    let later := run .plain .new (unbegun ++ [.clear, .purge, .advance 900000])
    Dropped .plain unbegun 7 1 ∧ (∀ v, (later.store.lookup 7 later.now).2 ≠ .hit v) ∧
    ((later.fetch .plain 7 none ()).1.resume later.nextCaller).2 = some .abandoned := by
  intro later
  have hdropped : Dropped .plain unbegun 7 1 :=
    ⟨[.fetch 7 none ()], _, [], rfl, rfl, ⟨1, 7, none, (), .queued⟩, rfl, rfl, rfl⟩
  have hno : ∀ v, (later.store.lookup 7 later.now).2 ≠ .hit v := Store.Lookup.ne_hit_of_miss rfl
  obtain ⟨-, -, hlater⟩ := deserted_iff_dropped .plain unbegun
  exact ⟨hdropped, hno, (hlater 7 1 [.clear, .purge, .advance 900000] none () hdropped hno).2⟩

end ChainBridge.Cache
