/-
What operations ask of the cache along a run.

Along a run it is written down which operations start (`Act.start?`) and what each load is told when it is asked for
(`Act.asking?`); `notes` are such notes of a whole run. The notes and the state that the run ends in tell the same
story. A load that is told to lead adds a fill with its query and any other load adds none, and the cache counts each as
what it is told (`run_asked`). The loads that an operation asks for are its own, in order and once each (`run_tracked`).
-/
import Mathlib
import ChainBridge.Proofs.Cache.Census
import ChainBridge.Proofs.Repository.Visits

namespace ChainBridge.Repository

/-! ## Notes of a run -/

/-- what is noted along a run -/
def notes {α : Type} (s : Setting) (note : St → Act → Option α) (st : St) : List Act → List α
  | [] => []
  | act :: rest => (note st act).toList ++ notes s note (step s st act) rest

section

variable {α : Type} (s : Setting) (note : St → Act → Option α)

theorem notes_snoc (st : St) (acts : List Act) (act : Act) :
    notes s note st (acts ++ [act]) = notes s note st acts ++ (note (run s st acts) act).toList := by
  induction acts generalizing st with
  | nil => simp [notes, run]
  | cons first rest ih =>
    simp only [List.cons_append, notes, ih, List.append_assoc]
    rfl

end

/-- an operation starts -/
def Act.start? (st : St) : Act → Option (Nat × Operation)
  | .visit op => some (st.nextVisit, op)
  | _ => none

/-- a load that an operation asks for, and what it is told -/
structure Asking where
  visit : Nat
  load : Load
  admission : Cache.Store.Admission Value

def Act.asking? (s : Setting) (st : St) : Act → Option Asking
  | .ask id => do
    let v ← st.visit? id
    let l ← v.next? s.options
    return ⟨id, l, (st.cache.store.ask l.key st.cache.now).2.1⟩
  | _ => none

/-! ## Loads -/

section

variable {s : Setting} {st : St} {act : Act}

theorem Act.asking?_eq_some {a : Asking} (h : act.asking? s st = some a) :
    ∃ v, act = .ask a.visit ∧ st.visit? a.visit = some v ∧ v.next? s.options = some a.load ∧
      a.admission = (st.cache.store.ask a.load.key st.cache.now).2.1 := by
  cases act with
  | ask visit =>
    obtain ⟨v, hv, h⟩ := Option.bind_eq_some_iff.1 h
    obtain ⟨l, hl, h⟩ := Option.bind_eq_some_iff.1 h
    obtain rfl := Option.some.inj h
    exact ⟨v, rfl, hv, hl, rfl⟩
  | _ => exact absurd h (by simp [asking?])

/-- a load that is asked for is looked up in the cache -/
theorem step_asked {a : Asking} (h : act.asking? s st = some a) :
    (step s st act).cache = (st.cache.fetch s.setup a.load.key a.load.ttl a.load.job).1 := by
  obtain ⟨v, rfl, hv, hnext, -⟩ := Act.asking?_eq_some h
  simp only [step, St.ask, hv, hnext]

/-- where no load is asked for, nothing is looked up -/
theorem step_unasked (hs : st.cache.store.Wf) (h : act.asking? s st = none) :
    (step s st act).cache.store.counters.lookups = st.cache.store.counters.lookups ∧
    (step s st act).cache.jobs = st.cache.jobs := by
  by_cases hask : ∃ visit, act = .ask visit
  · obtain ⟨visit, rfl⟩ := hask
    simp only [step, St.ask]
    split
    · exact ⟨rfl, rfl⟩
    · rename_i v hv
      cases hnext : v.next? s.options with
      | none => exact ⟨rfl, rfl⟩
      | some l => exact absurd h (by simp [Act.asking?, hv, hnext])
  · refine (step_cache (P := fun cache => cache.store.Wf ∧
      cache.store.counters.lookups = st.cache.store.counters.lookups ∧ cache.jobs = st.cache.jobs)
      (fun _ _ _ hcache => hcache) (fun cache a hissued hcache => ?_) ⟨hs, rfl, rfl⟩).2
    obtain ⟨hwf, hlookups, hjobs⟩ := hcache
    have hplain : (∀ key, a ≠ .get key) ∧ ∀ key ttl job, a ≠ .fetch key ttl job := by
      cases hissued with
      | ask visit => exact absurd ⟨visit, rfl⟩ hask
      | _ => exact ⟨by simp, by simp⟩
    exact ⟨Cache.step_lasting (Cache.wf_lasting s.setup.policy.maxSize) cache a hwf,
      (Cache.step_lookups s.setup hwf hplain.1 hplain.2).trans hlookups,
      (Cache.step_jobs s.setup cache hplain.2).trans hjobs⟩

end

/-- the books of the cache are in order, and its fills are told apart by their numbers -/
theorem run_single (s : Setting) (acts : List Act) :
    (run s .new acts).cache.store.Wf ∧ Cache.Single (run s .new acts).cache := by
  induction acts using List.reverseRecOn with
  | nil => exact ⟨Cache.Store.wf_empty, Cache.new_single⟩
  | append_singleton acts act ih =>
    rw [run_snoc]
    refine step_cache (P := fun cache => cache.store.Wf ∧ Cache.Single cache)
      (fun _ _ _ h => ⟨h.1, h.2.quiet rfl rfl⟩) (fun cache a _ h => ?_) ih
    exact ⟨Cache.step_lasting (Cache.wf_lasting s.setup.policy.maxSize) cache a h.1,
      Cache.step_single s.setup a h.2⟩

/-- the loads that were told to lead are the fills, and each load was counted as what it was told -/
theorem run_asked (s : Setting) (acts : List Act) :
    let cache := (run s .new acts).cache
    let asked := notes s (fun st act => act.asking? s st) .new acts
    cache.store.counters.lookups = (asked.countP (·.admission.isHit), asked.countP (·.admission.isJoin),
      asked.countP (·.admission.lead?.isSome)) ∧
    cache.jobs = asked.filterMap fun a => a.admission.lead?.map (·, a.load.job) := by
  intro cache asked
  induction acts using List.reverseRecOn with
  | nil => exact ⟨rfl, rfl⟩
  | append_singleton acts act ih =>
    obtain ⟨hlookups, hjobs⟩ := ih
    simp only [cache, asked, run_snoc, notes_snoc]
    cases h : act.asking? s (run s .new acts) with
    | none =>
      obtain ⟨hlookups', hjobs'⟩ := step_unasked (run_single s acts).1 h
      rw [hlookups', hjobs', hlookups, hjobs]
      simp
    | some a =>
      obtain ⟨v, -, -, -, hadmission⟩ := Act.asking?_eq_some h
      have hfetched := Cache.fetch_lookups s.setup (run s .new acts).cache a.load.key a.load.ttl a.load.job
      have hled := Cache.fetch_jobs s.setup (run s .new acts).cache a.load.key a.load.ttl a.load.job
      simp only [← hadmission] at hfetched hled
      obtain ⟨hhits, hrest⟩ := Prod.mk.inj hlookups
      obtain ⟨hcoalesced, hmisses⟩ := Prod.mk.inj hrest
      rw [step_asked h, hfetched, hled, hjobs, hhits, hcoalesced, hmisses]
      refine ⟨?_, ?_⟩
      · simp only [Option.toList_some, List.countP_append, List.countP_singleton]
      · rw [List.filterMap_append, Option.toList_some, List.filterMap_cons, List.filterMap_nil]
        cases a.admission.lead? <;> rfl

/-! ## Loads of an operation -/

/-- the loads that an operation asked for -/
def loadsOf (asked : List Asking) (id : Nat) : List Load := (asked.filter fun a => decide (a.visit = id)).map (·.load)

theorem loadsOf_append (asked more : List Asking) (id : Nat) :
    loadsOf (asked ++ more) id = loadsOf asked id ++ loadsOf more id := by
  rw [loadsOf, List.filter_append, List.map_append]
  rfl

theorem loadsOf_fresh {asked : List Asking} {id : Nat} (h : ∀ a ∈ asked, a.visit < id) : loadsOf asked id = [] := by
  rw [loadsOf, List.map_eq_nil_iff, List.filter_eq_nil_iff]
  intro a ha
  have hlt := h a ha
  simp
  omega

/-- operations have asked for loads of their own, in order: one that is under way for one load for each of its callers
-/
structure Tracked (o : Options) (st : St) (started : List (Nat × Operation)) (asked : List Asking) : Prop where
  ids : (started.map Prod.fst).Nodup
  below : ∀ p ∈ started, p.1 < st.nextVisit
  fresh : ∀ a ∈ asked, a.visit < st.nextVisit
  visits : ∀ v ∈ st.visits, (v.id, v.operation) ∈ started ∧
    loadsOf asked v.id = (v.operation.loads o).take v.callers.length
  loads : ∀ p ∈ started, loadsOf asked p.1 <+: p.2.loads o

namespace Tracked

variable {o : Options} {st st' : St} {started : List (Nat × Operation)} {asked : List Asking}

theorem fewer (h : Tracked o st started asked) (hsub : ∀ v ∈ st'.visits, v ∈ st.visits)
    (hnext : st'.nextVisit = st.nextVisit) : Tracked o st' started asked :=
  ⟨h.ids, hnext ▸ h.below, hnext ▸ h.fresh, fun v hv => h.visits v (hsub v hv), h.loads⟩

theorem visit (h : Tracked o st started asked) (op : Operation) :
    Tracked o (st.visit op) (started ++ [(st.nextVisit, op)]) asked := by
  have hnone : loadsOf asked st.nextVisit = [] := loadsOf_fresh h.fresh
  refine ⟨?_, fun p hp => ?_, fun a ha => Nat.lt_succ_of_lt (h.fresh a ha), fun v hv => ?_, fun p hp => ?_⟩
  · rw [List.map_append]
    refine h.ids.append (List.nodup_singleton _) fun id hid hnew => ?_
    obtain ⟨p, hp, rfl⟩ := List.mem_map.1 hid
    have hlt := h.below p hp
    have heq : p.1 = st.nextVisit := by simpa using hnew
    omega
  · rcases List.mem_append.1 hp with hp | hp
    · exact Nat.lt_succ_of_lt (h.below p hp)
    · rw [List.mem_singleton.1 hp]
      exact Nat.lt_succ_self _
  · rcases List.mem_append.1 hv with hv | hv
    · obtain ⟨hmem, hloads⟩ := h.visits v hv
      exact ⟨List.mem_append_left _ hmem, hloads⟩
    · rw [List.mem_singleton.1 hv]
      exact ⟨List.mem_append_right _ (List.mem_singleton_self _), hnone⟩
  · rcases List.mem_append.1 hp with hp | hp
    · exact h.loads p hp
    · rw [List.mem_singleton.1 hp, hnone]
      exact List.nil_prefix

/-- an operation asks for the load that comes after those it has asked for -/
theorem ask (h : Tracked o st started asked) (hids : (st.visits.map (·.id)).Nodup) {v : Visit} (hv : v ∈ st.visits)
    {a : Asking} (hvisit : a.visit = v.id) (hnext : v.next? o = some a.load) {caller : Nat}
    (hvisits : st'.visits = st.visits.map fun w => if w.id == v.id then w.joined caller else w)
    (hsame : st'.nextVisit = st.nextVisit) : Tracked o st' started (asked ++ [a]) := by
  obtain ⟨hstarted, hasked⟩ := h.visits v hv
  have hown : loadsOf (asked ++ [a]) v.id = (v.operation.loads o).take (v.callers.length + 1) := by
    have hone : loadsOf [a] v.id = [a.load] := by simp [loadsOf, hvisit]
    rw [Visit.next?] at hnext
    rw [loadsOf_append, hasked, hone, List.take_add_one, hnext]
    rfl
  -- operations have numbers of their own, so no other has asked for anything more
  have hother : ∀ id, id ≠ v.id → loadsOf (asked ++ [a]) id = loadsOf asked id := by
    intro id hne
    have hnone : loadsOf [a] id = [] := by simp [loadsOf, hvisit, hne.symm]
    rw [loadsOf_append, hnone, List.append_nil]
  refine ⟨h.ids, hsame ▸ h.below, fun b hb => ?_, fun w' hw' => ?_, fun p hp => ?_⟩
  · rw [hsame]
    rcases List.mem_append.1 hb with hb | hb
    · exact h.fresh b hb
    · rw [List.mem_singleton.1 hb, hvisit]
      exact h.below _ hstarted
  · rw [hvisits] at hw'
    obtain ⟨w, hw, rfl⟩ := List.mem_map.1 hw'
    split
    · rename_i hid
      obtain rfl : w = v := List.inj_on_of_nodup_map hids hw hv (by simpa using hid)
      refine ⟨hstarted, hown.trans ?_⟩
      simp [Visit.joined]
    · rename_i hid
      rw [hother w.id (by simpa using hid)]
      exact h.visits w hw
  · by_cases hid : p.1 = v.id
    · obtain rfl : p = (v.id, v.operation) := List.inj_on_of_nodup_map h.ids hp hstarted hid
      rw [hown]
      exact List.take_prefix _ _
    · rw [hother p.1 hid]
      exact h.loads p hp

end Tracked

theorem run_tracked (s : Setting) (acts : List Act) :
    Tracked s.options (run s .new acts) (notes s (fun st act => act.start? st) .new acts)
      (notes s (fun st act => act.asking? s st) .new acts) := by
  induction acts using List.reverseRecOn with
  | nil => refine ⟨List.nodup_nil, ?_, ?_, ?_, ?_⟩ <;> exact fun _ h => absurd h List.not_mem_nil
  | append_singleton acts act ih =>
    rw [run_snoc, notes_snoc, notes_snoc]
    have hattended := run_attended s acts
    generalize run s .new acts = st at ih hattended ⊢
    have hsilent : act.start? st = none → act.asking? s st = none → (∀ v ∈ (step s st act).visits, v ∈ st.visits) →
        (step s st act).nextVisit = st.nextVisit →
        Tracked s.options (step s st act) (notes s (fun st act => act.start? st) .new acts ++ (act.start? st).toList)
          (notes s (fun st act => act.asking? s st) .new acts ++ (act.asking? s st).toList) := by
      intro hstart hasking hsub hnext
      rw [hstart, hasking, Option.toList_none, Option.toList_none, List.append_nil, List.append_nil]
      exact ih.fewer hsub hnext
    cases step_visits s st act with
    | quiet hvisit hask hvisits hnext _ =>
      refine hsilent ?_ ?_ (fun v hv => hvisits ▸ hv) hnext
      · cases act with
        | visit op => exact absurd rfl (hvisit op)
        | _ => rfl
      · cases h : act.asking? s st with
        | none => rfl
        | some a =>
          obtain ⟨v, hact, hv, hl, -⟩ := Act.asking?_eq_some h
          exact absurd (hl.symm.trans (hask a.visit hact v hv)) (by simp)
    | started op hact he =>
      subst hact
      have hasking : (Act.visit op).asking? s st = none := rfl
      rw [hasking, Option.toList_none, List.append_nil, he]
      exact ih.visit op
    | asked v l hact hv hnext _ hvisits hsame _ =>
      subst hact
      have hstart : (Act.ask v.id).start? st = none := rfl
      have hasking : (Act.ask v.id).asking? s st =
          some ⟨v.id, l, (st.cache.store.ask l.key st.cache.now).2.1⟩ := by
        simp [Act.asking?, hv, hnext]
      rw [hstart, hasking, Option.toList_none, Option.toList_some, List.append_nil]
      exact ih.ask hattended.ids (visit?_some hv).1 rfl hnext hvisits hsame
    | returned v settled hact _ _ _ he =>
      refine hsilent (by rw [hact]; rfl) (by rw [hact]; rfl) (fun w hw => ?_) (by rw [he]; rfl)
      rw [he] at hw
      exact List.mem_of_mem_filter hw
    | left v hact _ he =>
      refine hsilent (by rw [hact]; rfl) (by rw [hact]; rfl) (fun w hw => ?_) (by rw [he]; rfl)
      rw [he] at hw
      exact List.mem_of_mem_filter hw

end ChainBridge.Repository
