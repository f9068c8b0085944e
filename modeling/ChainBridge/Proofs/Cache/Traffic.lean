/-
The fills, the markers and the callers of a cache, apart from its entries.

Entries come and go without them: of all acts only a `fetch` looks at the entries to decide what becomes of a fill or a
caller. What any other act does to this part of a cache can be told from the part alone (`step_traffic`).
-/
import Mathlib
import ChainBridge.Proofs.Cache.Callers
import ChainBridge.Proofs.Cache.Fates
import ChainBridge.Proofs.Cache.Fills

namespace ChainBridge.Cache

variable {K V E J : Type}

/-- the fills, the markers and the callers -/
def St.traffic (st : St K V E J) :
    List (Fill K V E J) × (List (Marker K) × Nat) × List (Caller K V) × Nat :=
  (st.fills, st.store.marks, st.callers, st.nextCaller)

variable {st st' : St K V E J}

theorem traffic_eq_iff : st'.traffic = st.traffic ↔ st'.fills = st.fills ∧ st'.store.marks = st.store.marks ∧
    st'.callers = st.callers ∧ st'.nextCaller = st.nextCaller := by
  simp only [St.traffic, Prod.mk.injEq]

theorem traffic_move (h : st'.traffic = st.traffic) (id : Nat) (stage : Stage V E) :
    (st'.move id stage).traffic = (st.move id stage).traffic := by
  obtain ⟨hfills, hmarks, hcallers, hnext⟩ := traffic_eq_iff.1 h
  refine traffic_eq_iff.2 ⟨?_, hmarks, hcallers, hnext⟩
  simp only [St.move, hfills]

/-- books that keep their markers -/
theorem traffic_books (h : st'.traffic = st.traffic) {s s' : Store K V} (hs : s.marks = st.store.marks)
    (hs' : s'.marks = st'.store.marks) :
    ({ st' with store := s' } : St K V E J).traffic = ({ st with store := s } : St K V E J).traffic := by
  obtain ⟨hfills, hmarks, hcallers, hnext⟩ := traffic_eq_iff.1 h
  exact traffic_eq_iff.2 ⟨hfills, hs'.trans (hmarks.trans hs.symm), hcallers, hnext⟩

theorem traffic_leave (h : st'.traffic = st.traffic) (caller : Nat) :
    (st'.leave caller).traffic = (st.leave caller).traffic := by
  obtain ⟨hfills, hmarks, hcallers, hnext⟩ := traffic_eq_iff.1 h
  exact traffic_eq_iff.2 ⟨hfills, hmarks, by simp only [St.leave, hcallers], hnext⟩

theorem settled?_congr (h : st'.traffic = st.traffic) (caller : Nat) : st'.settled? caller = st.settled? caller := by
  obtain ⟨hfills, -, hcallers, -⟩ := traffic_eq_iff.1 h
  simp only [St.settled?, St.fill?, hfills, hcallers]

variable [DecidableEq K]

theorem traffic_release (h : st'.traffic = st.traffic) (key : K) (id : Nat) :
    ({ st' with store := st'.store.release key id } : St K V E J).traffic =
      ({ st with store := st.store.release key id } : St K V E J).traffic := by
  obtain ⟨hfills, hmarks, hcallers, hnext⟩ := traffic_eq_iff.1 h
  obtain ⟨hpending, hfill⟩ := Prod.mk.inj hmarks
  refine traffic_eq_iff.2 ⟨hfills, ?_, hcallers, hnext⟩
  simp only [Store.release, Store.marker?, hpending]
  split
  · exact hmarks
  · split_ifs
    · simp only [Store.marks, hfill]
    · exact hmarks

theorem traffic_crash (h : st'.traffic = st.traffic) (id : Nat) : (st'.crash id).traffic = (st.crash id).traffic := by
  have hfill := fill?_congr (traffic_eq_iff.1 h).1 id
  simp only [St.crash, hfill]
  split
  · exact traffic_move (traffic_release h _ id) id _
  · exact h

theorem traffic_get (c : Setup) (st : St K V E J) (key : K) : (st.get c key).1.traffic = st.traffic := by
  have hmarks := Store.lookup_marks st.store key st.now
  unfold St.get
  split
  · rename_i s v he
    rw [he] at hmarks
    exact traffic_eq_iff.2 ⟨rfl, hmarks, rfl, rfl⟩
  · rename_i s found _ he
    rw [he] at hmarks
    exact traffic_eq_iff.2 ⟨rfl, hmarks, rfl, rfl⟩

variable [Footprint K] [Footprint V]

theorem traffic_set (c : Setup) (st : St K V E J) (key : K) (value : V) (ttl : Option Nat) :
    (st.set c key value ttl).1.traffic = st.traffic :=
  traffic_eq_iff.2 ⟨set_fills c st key value ttl, set_marks c st key value ttl, set_callers c st key value ttl⟩

theorem traffic_finish (c : Setup) (h : st'.traffic = st.traffic) (id : Nat) (outcome : Except E V) :
    (st'.finish c id outcome).traffic = (st.finish c id outcome).traffic := by
  have hfill := fill?_congr (traffic_eq_iff.1 h).1 id
  simp only [St.finish, hfill]
  split
  · rename_i key ttl job _
    refine traffic_move ?_ id _
    cases outcome with
    | error e => exact traffic_release h key id
    | ok v =>
      simp only [traffic_set]
      exact traffic_release h key id
  · exact h

/-- what an act other than a `fetch` does to the fills, the markers and the callers depends on them alone -/
theorem step_traffic (c : Setup) (h : st'.traffic = st.traffic) {act : Act K V E J}
    (hact : ∀ key ttl job, act ≠ .fetch key ttl job) : (step c st' act).traffic = (step c st act).traffic := by
  have hfill : ∀ id, st'.fill? id = st.fill? id := fill?_congr (traffic_eq_iff.1 h).1
  cases act with
  | fetch key ttl job => exact absurd rfl (hact key ttl job)
  | get key => exact (traffic_get c st' key).trans (h.trans (traffic_get c st key).symm)
  | set key value ttl => exact (traffic_set c st' key value ttl).trans (h.trans (traffic_set c st key value ttl).symm)
  | squeeze key value => exact traffic_books h (Store.makeRoom_marks _ _ _ _ _) (Store.makeRoom_marks _ _ _ _ _)
  | invalidate key => exact traffic_books h (Store.erase_marks _ _) (Store.erase_marks _ _)
  | clear => exact traffic_books h rfl rfl
  | purge => exact traffic_books h (Store.purge_marks _ _) (Store.purge_marks _ _)
  | advance ms => exact h
  | leave caller => exact traffic_leave h caller
  | resume caller =>
    simp only [step, St.resume, settled?_congr h]
    split
    · exact h
    · exact traffic_leave h caller
  | begin fill =>
    simp only [step, St.begin, hfill]
    split
    · exact traffic_move h fill _
    · exact h
  | finish fill outcome => exact traffic_finish c h fill outcome
  | crash fill => exact traffic_crash h fill
  | tell fill =>
    simp only [step, St.tell, hfill]
    split
    · exact traffic_move h fill _
    · exact h
  | discard fill =>
    simp only [step, St.discard, hfill]
    split
    · exact traffic_move h fill _
    · exact traffic_crash h fill
    · exact h

end ChainBridge.Cache
