/-
The stored entries never take more bytes than the cache may use.

A plan reckons with bytes that it does not free itself: it goes through the index with the bytes that would be left
(`plan_left`), and only later are its places emptied. `Wf.evict_occupied` says that this frees just what the plan took
off, so where a plan says that there is room, there is (`Wf.makeRoom_fits`), whatever keys it had to pass over. All
else that is done to the books takes entries out, or leaves them as they are.
-/
import Mathlib
import ChainBridge.Cache.Stats
import ChainBridge.Proofs.Cache.Entries
import ChainBridge.Proofs.Cache.Representation

namespace ChainBridge.Cache

variable {K V E J : Type} [DecidableEq K]

namespace Store

variable {s : Store K V}

/-- what a plan takes off the projected bytes is what stands behind its places -/
theorem plan_left {needed max : Nat} {l : List (Place K)} {projected : Nat}
    (h : s.PlanExact needed max l projected) :
    (s.plan needed max l projected).2 + ((s.plan needed max l projected).1.map s.sizeAt).sum = projected := by
  induction l generalizing projected with
  | nil => simp [plan]
  | cons p rest ih =>
    simp only [PlanExact] at h
    simp only [plan]
    split_ifs at h ⊢
    · simp
    · exact ih h
    · cases hf : s.find? p.key with
      | none =>
        simp only [hf] at h
        exact ih h
      | some e =>
        simp only [hf] at h
        have hsize : s.sizeAt p = e.size := by simp [sizeAt, hf]
        have hrest := ih h.2
        simp only [List.map_cons, List.sum_cons, hsize]
        have hle := h.1
        omega

variable [Footprint K] [Footprint V]

namespace Wf

omit [DecidableEq K] in
/-- fewer entries take fewer bytes -/
theorem occupied_le {s' : Store K V} (h : Wf s) (h' : Wf s') (hsub : s'.entries.Sublist s.entries) :
    s'.occupied ≤ s.occupied := by
  rw [h.occupied, h'.occupied]
  exact (hsub.map _).sum_le_sum fun _ _ => Nat.zero_le _

theorem sizeAt_erase_other (h : Wf s) {p q : Place K} (hne : q.key ≠ p.key) :
    (s.erase p.key).sizeAt q = s.sizeAt q := by
  rw [sizeAt, h.find?_erase_other hne, sizeAt]

/-- emptying places frees what stands behind them -/
theorem evict_occupied (h : Wf s) (now : Nat) {victims : List (Place K)} (hv : victims.Sublist s.index) :
    (evict now victims s).1.occupied + (victims.map s.sizeAt).sum = s.occupied := by
  induction victims generalizing s with
  | nil => simp [evict]
  | cons p rest ih =>
    have hp : p ∈ s.index := hv.subset List.mem_cons_self
    obtain ⟨e, hf, he⟩ := h.find?_place hp
    have hrest := ih (h.erase p.key) (h.sublist_erase hv)
    -- the victims behind the first are places of other keys
    have hsame : rest.map (s.erase p.key).sizeAt = rest.map s.sizeAt := by
      refine List.map_congr_left fun q hq => h.sizeAt_erase_other ?_
      intro hkey
      obtain ⟨e', hf', he'⟩ := h.find?_place (hv.subset (List.mem_cons_of_mem p hq))
      rw [hkey, hf] at hf'
      have hqp : q = p := by rw [← he', ← Option.some.inj hf', he]
      have hnd := (hv.map Place.slot).nodup h.slots
      rw [List.map_cons, List.nodup_cons] at hnd
      exact hnd.1 (List.mem_map.2 ⟨q, hq, by rw [hqp]⟩)
    have hsize : s.sizeAt p = e.size := by simp [sizeAt, hf]
    have herase : s.occupied = e.size + (s.erase p.key).occupied := by
      rw [h.occupied_eq hf, (h.erase p.key).occupied, erase_entries]
    rw [evict_cons_fst now p rest s e hf, h.empty_place hp, List.map_cons, List.sum_cons, ← hsame, hsize]
    omega

/-- where a plan says that there is room, there is when its places have been emptied -/
theorem evict_fits (h : Wf s) (now : Nat) {needed max : Nat} {victims : List (Place K)}
    (hv : s.planEviction needed max = some victims) : (evict now victims s).1.occupied + needed ≤ max := by
  have hfreed := h.evict_occupied now (planEviction_sublist hv)
  have hplan := plan_left (h.planExact needed max)
  simp only [planEviction] at hv
  split_ifs at hv with hfit
  rw [Option.some.inj hv] at hplan
  omega

theorem makeRoom_fits (h : Wf s) {max now size : Nat} {key : K} {freed : Freed}
    (hr : (s.makeRoom max now size key).2 = some freed) : (s.makeRoom max now size key).1.occupied + size ≤ max := by
  have hsome := makeRoom_isSome s max now size key
  rw [hr, Option.isSome_some] at hsome
  obtain ⟨places, hplan⟩ := Option.isSome_iff_exists.1 hsome.symm
  obtain ⟨c, he⟩ := makeRoom_of_room? now hplan
  unfold room? at hplan
  split_ifs at hplan
  rw [he]
  exact (h.erase key).evict_fits now hplan

theorem makeRoom_occupied_le (h : Wf s) (max now size : Nat) (key : K) :
    (s.makeRoom max now size key).1.occupied ≤ s.occupied := by
  refine h.occupied_le (h.makeRoom max now size key) ?_
  rw [h.makeRoom_entries]
  exact List.filter_sublist

theorem insert_occupied_le (h : Wf s) {max : Nat} (hle : s.occupied ≤ max) (now : Nat) (key : K) (value : V)
    (ttl : Nat) : (s.insert max now key value ttl).1.occupied ≤ max := by
  cases hr : s.makeRoom max now (entrySize key value) key with
  | mk s' freed =>
    cases freed with
    | none =>
      have hroom := h.makeRoom_occupied_le max now (entrySize key value) key
      rw [hr] at hroom
      rw [insert_of_no_room ttl hr]
      exact hroom.trans hle
    | some freed =>
      have hsome : (s.makeRoom max now (entrySize key value) key).2 = some freed := by rw [hr]
      have hfits := h.makeRoom_fits hsome
      rw [hr] at hfits
      rw [insert_of_room ttl hr]
      exact hfits

end Wf

end Store

variable [Footprint K] [Footprint V]

/-- books that are in order and take no more bytes than the cache may use stay so -/
theorem budget_lasting (max : Nat) : Lasting max fun s : Store K V => s.Wf ∧ s.occupied ≤ max where
  counted _ c h := ⟨h.1.counted c, h.2⟩
  marked _ pending nextFill h := ⟨h.1.marked pending nextFill, h.2⟩
  erased s key h := by
    refine ⟨h.1.erase key, (h.1.occupied_le (h.1.erase key) ?_).trans h.2⟩
    rw [Store.erase_entries]
    exact List.filter_sublist
  cleared s _ := ⟨Store.wf_clear s, Nat.zero_le _⟩
  purged s now h := by
    refine ⟨h.1.purge now, (h.1.occupied_le (h.1.purge now) ?_).trans h.2⟩
    rw [(Store.purge_entries h.1 now).1]
    exact List.filter_sublist
  squeezed _ now size key h := ⟨h.1.makeRoom max now size key, (h.1.makeRoom_occupied_le max now size key).trans h.2⟩
  inserted _ now key value ttl h := ⟨h.1.insert max now key value ttl, h.1.insert_occupied_le h.2 now key value ttl⟩

/-- **The budget holds.** After any sequence of acts, under any policy, what the stored entries are charged for their
keys, their values and their overhead is together no more than the cache may use, and neither are the bytes in use that
it reports, which are the same number. -/
theorem entries_within_budget (c : Setup) (acts : List (Act K V E J)) :
    let st : St K V E J := run c .new acts
    (st.store.entries.map fun e => entrySize e.key e.value).sum ≤ c.policy.maxSize ∧
    (st.store.stats c.policy.maxSize).occupied ≤ (st.store.stats c.policy.maxSize).maxSize ∧
    (st.store.stats c.policy.maxSize).occupied = (st.store.entries.map fun e => entrySize e.key e.value).sum := by
  intro st
  obtain ⟨h, hle⟩ : st.store.Wf ∧ st.store.occupied ≤ c.policy.maxSize :=
    run_lasting (budget_lasting c.policy.maxSize) .new acts ⟨Store.wf_empty, Nat.zero_le _⟩
  have hsum : st.store.occupied = (st.store.entries.map fun e => entrySize e.key e.value).sum := by
    rw [h.occupied, List.map_congr_left h.sizes]
  exact ⟨hsum ▸ hle, hle, hsum⟩

end ChainBridge.Cache
