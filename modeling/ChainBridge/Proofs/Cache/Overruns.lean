/-
Values that would outlive the clock.

The value of a running fill is offered to the store as long as the clock can name the instant of its expiry, or if there
is no room for it anyway (`isKeepable_iff`). For one that fits but lives for too long, room is made first; then the fill
crashes, so that its key is free, nothing is stored under it, and the entries that made room are gone for nothing
(`conclude_overrun`).
-/
import Mathlib
import ChainBridge.Cache.Landing
import ChainBridge.Proofs.Cache.Evictions

namespace ChainBridge.Cache

variable {K V E J : Type} [DecidableEq K] [Footprint K] [Footprint V]

/-- whether a value of a fill fits beside the entries that cannot go -/
def St.FindsRoom (c : Setup) (st : St K V E J) (f : Fill K V E J) (v : V) : Prop :=
  entrySize f.key v + Store.total (st.store.fixed f.key) ≤ c.policy.maxSize

/-- what is left of a fill whose value had found room but could not be stored -/
structure Overrun (c : Setup) (st st' : St K V E J) (f : Fill K V E J) (v : V) : Prop where
  ended : st'.fill? f.id = some { f with stage := .ended none }
  free : st'.store.filling? f.key = none
  unstored : st'.store.find? f.key = none
  /-- the entries that would have gone for the value are gone -/
  entries : ∃ gone, ShortestFront ((st.store.release f.key f.id).Fits c.policy.maxSize (entrySize f.key v) f.key)
      ((st.store.release f.key f.id).queue f.key) gone ∧
    st'.store.entries = Store.without (st.store.others f.key) gone

section

variable {c : Setup} {horizon : Nat} {st : St K V E J} {f : Fill K V E J} {v : V}

theorem isKeepable_iff (horizon : Nat) (h : st.store.Wf) : st.isKeepable c horizon f v = true ↔
    st.now + f.ttl.getD c.policy.defaultTtl < horizon ∨ ¬st.FindsRoom c f v := by
  have hreleased : (st.store.release f.key f.id).Wf := (wf_lasting 0).release st.store f.key f.id h
  obtain ⟨-, hfixed⟩ := Store.fixed_release st.store f.key f.id
  have hroom : ((st.store.release f.key f.id).makeRoom c.policy.maxSize st.now (entrySize f.key v) f.key).2.isNone =
      true ↔ ¬st.FindsRoom c f v := by
    rw [Option.isNone_iff_eq_none, ← Option.not_isSome_iff_eq_none, Store.makeRoom_isSome, St.FindsRoom, ← hfixed]
    by_cases hfits : entrySize f.key v + Store.total ((st.store.release f.key f.id).fixed f.key) ≤ c.policy.maxSize
    · obtain ⟨gone, hgone, -⟩ := hreleased.room?_of_fits hfits
      simp [hgone, hfits]
    · simp [hreleased.room?_of_not_fits hfits, hfits]
  rw [St.isKeepable, Bool.or_eq_true, decide_eq_true_eq, hroom]

theorem conclude_keepable (hf : st.fill? f.id = some f) (hkeep : st.isKeepable c horizon f v = true) :
    st.conclude c horizon f.id (some (.ok v)) = st.finish c f.id (.ok v) := by
  simp only [St.conclude, hf, hkeep, if_true]

theorem conclude_overrun (h : st.store.Wf) (hs : Single st) (hf : f ∈ st.fills) (hrunning : f.stage = .running)
    (hkeep : st.isKeepable c horizon f v = false) : Overrun c st (st.conclude c horizon f.id (some (.ok v))) f v := by
  obtain ⟨hothers, hfixed⟩ := Store.fixed_release st.store f.key f.id
  have hreleased : (st.store.release f.key f.id).Wf := (wf_lasting 0).release st.store f.key f.id h
  have hfound : st.fill? f.id = some f := fill?_of_mem hs.ids hf
  have hmarked : st.store.filling? f.key = some f.id := hs.filling?_of_holds hf (by rw [hrunning]; rfl)
  have hcrash : st.crash f.id = { st with store := st.store.release f.key f.id }.move f.id (.ended none) := by
    obtain ⟨id, key, ttl, job, stage⟩ := f
    obtain rfl : stage = .running := hrunning
    simp only [St.crash, hfound]
  have hfits : entrySize f.key v + Store.total ((st.store.release f.key f.id).fixed f.key) ≤ c.policy.maxSize := by
    rw [hfixed]
    by_contra hno
    rw [(isKeepable_iff horizon h).2 (.inr hno)] at hkeep
    exact absurd hkeep (by simp)
  obtain ⟨gone, hroom, hgone⟩ := hreleased.room?_of_fits hfits
  have hentries := hreleased.makeRoom_entries c.policy.maxSize st.now (entrySize f.key v) f.key
  rw [Store.victims_of_room? hroom, Store.filter_others, hothers] at hentries
  have hstore : (st.conclude c horizon f.id (some (.ok v))).store =
      ((st.store.release f.key f.id).makeRoom c.policy.maxSize st.now (entrySize f.key v) f.key).1 := by
    simp only [St.conclude, hfound, hkeep, Bool.false_eq_true, if_false, St.overrun, hcrash]
    rfl
  refine ⟨?_, ?_, ?_, gone, hgone, by rw [hstore, hentries]⟩
  · simp only [St.conclude, hfound, hkeep, Bool.false_eq_true, if_false, St.overrun, hcrash]
    exact fill?_move_self hfound _
  · rw [hstore, Store.filling?_congr (Store.makeRoom_marks _ _ _ _ _)]
    exact Store.filling?_release hmarked
  · rw [hstore]
    refine Store.find?_eq_none_of fun e he => ?_
    rw [hentries] at he
    simpa using (List.mem_filter.1 (List.mem_filter.1 he).1).2

/-! ## Where a fill comes from -/

/-- every fill was started by a caller of the run, with its key, its time to live and its job -/
theorem run_fetched (c : Setup) (acts : List (Act K V E J)) :
    ∀ f ∈ (run c (.new : St K V E J) acts).fills, Act.fetch f.key f.ttl f.job ∈ acts := by
  induction acts using List.reverseRecOn with
  | nil => exact fun f hf => absurd hf List.not_mem_nil
  | append_singleton acts act ih =>
    have hmoved : ∀ (id : Nat) (stage : Stage V E), ∀ f ∈ ((run c (.new : St K V E J) acts).move id stage).fills,
        Act.fetch f.key f.ttl f.job ∈ acts := by
      intro id stage f hf
      obtain ⟨g, hg, rfl⟩ := List.mem_map.1 hf
      have hold := ih g hg
      split_ifs <;> exact hold
    intro f hf
    rw [run_snoc] at hf
    cases step_fills c (run c .new acts) act with
    | quiet hfills _ => exact List.mem_append_left _ (ih f (hfills ▸ hf))
    | started key ttl job hact _ hfills _ =>
      rw [hfills] at hf
      rcases List.mem_append.1 hf with hf | hf
      · exact List.mem_append_left _ (ih f hf)
      · obtain rfl := List.mem_singleton.1 hf
        exact List.mem_append_right _ (hact ▸ List.mem_singleton_self _)
    | moved g stage _ _ _ hfills _ => exact List.mem_append_left _ (hmoved g.id stage f (hfills ▸ hf))
    | ended g outcome _ _ _ hfills _ => exact List.mem_append_left _ (hmoved g.id _ f (hfills ▸ hf))

end

end ChainBridge.Cache
