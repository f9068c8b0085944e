/-
What the node is asked.

A fill sends its request when it begins, and its answer is counted when the node has replied, both at most once
(`run_sent`, `run_answered`). So whatever was sent can be told from how far the fills have come, and what was sent for
an operation from the loads that it asked for.
- `calls_are_misses`: in every run, what was sent and what is still queued together are the misses.
-/
import Mathlib
import ChainBridge.Cache.Stats
import ChainBridge.Proofs.Repository.Notes

namespace ChainBridge

/-! ## Counted questions -/

namespace Metrics

/-- whether a series counts questions to the node -/
def Counter.isRpc : Counter → Bool
  | .rpcCalls .. => true
  | _ => false

/-- the questions to the node, whatever they were and however they ended -/
def total (counters : List (Counter × Nat)) : Nat := ((counters.filter (·.1.isRpc)).map (·.2)).sum

namespace Registry

def rpcTotal (r : Registry) : Nat := total r.counters

theorem bump_total (counter : Counter) (n : Nat) (counters : List (Counter × Nat)) :
    total (bump counter n counters) = total counters + if counter.isRpc then n else 0 := by
  induction counters with
  | nil => cases hc : counter.isRpc <;> simp [bump, total, hc]
  | cons p rest ih =>
    rw [bump]
    split
    · rename_i he
      subst he
      cases hc : p.1.isRpc <;> simp [total, hc]
      omega
    · simp only [total] at ih ⊢
      cases hc : p.1.isRpc <;> simp [hc, ih]
      omega

@[simp] theorem rpcTotal_add (r : Registry) (counter : Counter) (n : Nat) :
    (r.add counter n).rpcTotal = r.rpcTotal + if counter.isRpc then n else 0 :=
  bump_total counter n r.counters

@[simp] theorem rpcTotal_hit (r : Registry) (cache : String) : (r.hit cache).rpcTotal = r.rpcTotal :=
  rpcTotal_add r _ 1

@[simp] theorem rpcTotal_miss (r : Registry) (cache : String) : (r.miss cache).rpcTotal = r.rpcTotal :=
  rpcTotal_add r _ 1

@[simp] theorem rpcTotal_coalesced (r : Registry) (cache : String) : (r.coalesced cache).rpcTotal = r.rpcTotal :=
  rpcTotal_add r _ 1

@[simp] theorem rpcTotal_evicted (r : Registry) (cache reason : String) (n : Nat) :
    (r.evicted cache reason n).rpcTotal = r.rpcTotal := by
  unfold evicted
  split_ifs
  · rfl
  · exact rpcTotal_add r _ n

@[simp] theorem rpcTotal_occupancy (r : Registry) (cache : String) (entries bytes : Nat) :
    (r.occupancy cache entries bytes).rpcTotal = r.rpcTotal := rfl

end Registry

end Metrics

namespace Cache

variable {K V E J : Type} [DecidableEq K] [Footprint K] [Footprint V]

/-- a cache asks nothing of the node by itself -/
theorem step_rpcTotal (c : Setup) (st : St K V E J) (act : Act K V E J) :
    (step c st act).metrics.rpcTotal = st.metrics.rpcTotal := by
  have hheard : Heard c.name fun r => r.rpcTotal = st.metrics.rpcTotal := by
    constructor <;> intros <;> simpa
  refine step_heard hheard st act (fun _ r entries bytes hr => ?_) rfl
  exact (Metrics.Registry.rpcTotal_occupancy r c.name entries bytes).trans hr

end Cache

namespace Repository

/-! ## Requests and replies -/

/-- a request that a fill sends -/
structure Sending where
  fill : Nat
  request : Rpc.Request

def Act.sending? (s : Setting) (st : St) : Act → Option Sending
  | .begin fill =>
    match st.cache.fill? fill with
    | some ⟨_, _, _, q, .queued⟩ => some ⟨fill, q.request s.ns⟩
    | _ => none
  | _ => none

/-- a fill to which the node replies -/
def Act.answered? (st : St) : Act → Option Nat
  | .reply fill _ =>
    match st.cache.fill? fill with
    | some ⟨_, _, _, _, .running⟩ => some fill
    | _ => none
  | _ => none

theorem new_unreached (φ : Cache.Stage Value Rpc.Error → Bool) (fill : Nat) : ¬St.new.cache.Reached φ fill := by
  rintro ⟨f, hf, -⟩
  exact absurd hf (by simp [St.new, Cache.St.new, Cache.St.fill?])

/-- fills that are noted when they come somewhere are those that have come there -/
theorem notes_reached {α : Type} (s : Setting) (note : St → Act → Option α) (num : α → Nat)
    {φ : Cache.Stage Value Rpc.Error → Bool}
    (hstep : ∀ st act fill, (step s st act).cache.Reached φ fill ↔
      st.cache.Reached φ fill ∨ ∃ a, note st act = some a ∧ num a = fill)
    (hfresh : ∀ st act a, note st act = some a → ¬st.cache.Reached φ (num a)) (acts : List Act) :
    ((notes s note .new acts).map num).Nodup ∧
    ∀ fill, fill ∈ (notes s note .new acts).map num ↔ (run s .new acts).cache.Reached φ fill := by
  -- from the end of the run; a fill that is noted now had not come there, so it was not noted before
  induction acts using List.reverseRecOn with
  | nil => exact ⟨List.nodup_nil, fun fill => iff_of_false List.not_mem_nil (new_unreached φ fill)⟩
  | append_singleton acts act ih =>
    obtain ⟨hnodup, hiff⟩ := ih
    rw [run_snoc, notes_snoc]
    refine ⟨?_, fun fill => ?_⟩
    · rw [List.map_append]
      refine hnodup.append ?_ fun fill hold hnew => ?_
      · cases note (run s .new acts) act <;> simp
      · obtain ⟨a, ha, rfl⟩ := List.mem_map.1 hnew
        exact hfresh _ act a (Option.mem_toList.1 ha) ((hiff _).1 hold)
    · rw [hstep, List.map_append, List.mem_append, hiff, List.mem_map]
      simp only [Option.mem_toList]

section

variable {s : Setting} {st : St} {act : Act} {φ : Cache.Stage Value Rpc.Error → Bool}

/-- a request is that of the job of a fill that begins -/
theorem step_sending {a : Sending} (h : act.sending? s st = some a) :
    act = .begin a.fill ∧
    (∃ f, st.cache.fill? a.fill = some f ∧ f.stage = .queued ∧ a.request = f.job.request s.ns) ∧
    step s st act = { st with cache := st.cache.begin a.fill, sent := st.sent ++ [a.request] } := by
  cases act with
  | begin id =>
    simp only [Act.sending?] at h
    split at h
    · rename_i hf
      obtain rfl := Option.some.inj h
      exact ⟨rfl, ⟨_, hf, rfl, rfl⟩, by simp only [step, St.begin, hf]⟩
    · exact absurd h (by simp)
  | _ => exact absurd h (by simp [Act.sending?])

/-- an act that sends nothing lets no fill begin -/
theorem step_unsent (h : act.sending? s st = none) : step s st act = st ∨ ∀ id, act ≠ .begin id := by
  cases act with
  | begin id =>
    left
    simp only [step, St.begin]
    split
    · rename_i hf
      exact absurd h (by simp [Act.sending?, hf])
    · rfl
  | _ => exact .inr (by simp)

/-- a reply is counted, and ends the fill -/
theorem step_replied {id : Nat} (h : act.answered? st = some id) :
    ∃ f result metrics, st.cache.fill? id = some f ∧ f.stage = .running ∧
      metrics.rpcTotal = st.cache.metrics.rpcTotal + 1 ∧
      (step s st act).cache =
        { st.cache with metrics := metrics }.finish s.setup id (f.job.conclude s.ns result) := by
  cases act with
  | reply id' result =>
    simp only [Act.answered?] at h
    split at h
    · rename_i i key ttl q hf
      obtain rfl := Option.some.inj h
      exact ⟨⟨i, key, ttl, q, .running⟩, result, st.cache.metrics.add (q.counter s.ns result) 1, hf, rfl,
        Metrics.Registry.rpcTotal_add _ _ 1, by simp only [step, St.reply, hf]⟩
    · exact absurd h (by simp)
  | _ => exact absurd h (by simp [Act.answered?])

/-- an act without a reply ends no fill with an outcome -/
theorem step_unanswered (s : Setting) (h : act.answered? st = none) :
    step s st act = st ∨ ¬∃ id result, act = .reply id result := by
  cases act with
  | reply id result =>
    left
    simp only [step, St.reply]
    split
    · rename_i hf
      exact absurd h (by simp [Act.answered?, hf])
    · rfl
  | _ => exact .inr (by simp)

/-- an act by which no fill comes somewhere leaves them as far as they had come -/
theorem step_reached (hqueued : φ .queued = false)
    (hturn : ∀ cache a, Issues s cache act a →
      ∀ fill before after, Cache.Turns a fill before after → φ after = φ before)
    (fill : Nat) : (step s st act).cache.Reached φ fill ↔ st.cache.Reached φ fill := by
  refine step_cache (P := fun cache => cache.Reached φ fill ↔ st.cache.Reached φ fill) (fun _ _ _ h => h)
    (fun cache a hissued h => ?_) Iff.rfl
  exact (Cache.step_reached s.setup hqueued fun before after => hturn cache a hissued fill before after).trans h

/-- a fill begins if and only if it sends its request -/
theorem step_begun (fill : Nat) :
    (step s st act).cache.Reached Cache.Stage.hasBegun fill ↔
      st.cache.Reached Cache.Stage.hasBegun fill ∨ ∃ a, act.sending? s st = some a ∧ a.fill = fill := by
  cases h : act.sending? s st with
  | some a =>
    obtain ⟨-, ⟨f, hf, hqueued, -⟩, he⟩ := step_sending h
    have hturn : Cache.Turns (.begin a.fill : Cache.Act Key Value Rpc.Error Rpc.Query) a.fill f.stage .running := by
      rw [hqueued]
      exact .begin a.fill
    rw [he]
    refine (hturn.reached s.setup hf rfl rfl fill).trans (or_congr_right ?_)
    simp [eq_comm]
  | none =>
    simp only [reduceCtorEq, false_and, exists_false, or_false]
    rcases step_unsent h with he | hno
    · rw [he]
    · refine step_reached rfl (fun cache a hissued id before after hturn => ?_) fill
      cases hissued with
      | begin id => exact absurd rfl (hno id)
      | _ => cases hturn <;> rfl

/-- a fill ends with an outcome if and only if the node replies to it -/
theorem step_answered (s : Setting) (fill : Nat) :
    (step s st act).cache.Reached Cache.Stage.isAnswered fill ↔
      st.cache.Reached Cache.Stage.isAnswered fill ∨ ∃ id, act.answered? st = some id ∧ id = fill := by
  cases h : act.answered? st with
  | some id =>
    obtain ⟨f, result, metrics, hf, hrunning, -, he⟩ := step_replied (s := s) h
    have hturn : Cache.Turns (.finish id (f.job.conclude s.ns result) : Cache.Act Key Value Rpc.Error Rpc.Query) id
        f.stage (.ended (some (f.job.conclude s.ns result))) := by
      rw [hrunning]
      exact .finish id _
    rw [he]
    generalize hcounted : { st.cache with metrics := metrics } = counted
    have hfill : counted.fill? id = some f := by
      rw [← hcounted]
      exact hf
    have hsame : counted.Reached Cache.Stage.isAnswered fill ↔ st.cache.Reached Cache.Stage.isAnswered fill := by
      rw [← hcounted]
      rfl
    refine (hturn.reached s.setup hfill rfl rfl fill).trans ?_
    rw [hsame]
    refine or_congr_right ?_
    simp [eq_comm]
  | none =>
    simp only [reduceCtorEq, false_and, exists_false, or_false]
    rcases step_unanswered s h with he | hno
    · rw [he]
    · refine step_reached rfl (fun cache a hissued id before after hturn => ?_) fill
      cases hissued with
      | reply id result => exact absurd ⟨id, result, rfl⟩ hno
      | tell id =>
        cases hturn with
        | tell _ outcome => cases outcome <;> rfl
      | _ => cases hturn <;> rfl

/-- what is sent is what the act sends -/
theorem step_sent : (step s st act).sent = st.sent ++ ((act.sending? s st).map (·.request)).toList := by
  cases h : act.sending? s st with
  | some a =>
    obtain ⟨-, -, he⟩ := step_sending h
    rw [he]
    rfl
  | none =>
    simp only [Option.map_none, Option.toList_none, List.append_nil]
    rcases step_unsent h with he | hno
    · rw [he]
    cases act with
    | begin id => exact absurd rfl (hno id)
    | ask id =>
      simp only [step, St.ask]
      split
      · rfl
      · split <;> rfl
    | resume id =>
      simp only [step, St.resume]
      split
      · rfl
      · split <;> rfl
    | giveUp id =>
      simp only [step, St.giveUp]
      split <;> rfl
    | reply id result =>
      simp only [step, St.reply]
      split <;> rfl
    | _ => rfl

/-- every reply is counted once -/
theorem step_rpcTotal (s : Setting) :
    (step s st act).cache.metrics.rpcTotal = st.cache.metrics.rpcTotal + (act.answered? st).toList.length := by
  cases h : act.answered? st with
  | some id =>
    obtain ⟨f, result, metrics, -, -, hrpc, he⟩ := step_replied (s := s) h
    rw [he]
    exact (Cache.step_rpcTotal s.setup _ (.finish id (f.job.conclude s.ns result))).trans hrpc
  | none =>
    rcases step_unanswered s h with he | hno
    · rw [he]
      rfl
    · exact step_cache (P := fun cache => cache.metrics.rpcTotal = st.cache.metrics.rpcTotal)
        (fun hreply => absurd hreply hno)
        (fun cache a _ hcache => (Cache.step_rpcTotal s.setup cache a).trans hcache) rfl

end

/-- every request was sent by a fill of its own when the fill began -/
theorem run_sent (s : Setting) (acts : List Act) :
    let st := run s .new acts
    let sendings := notes s (fun st act => act.sending? s st) .new acts
    st.sent = sendings.map (·.request) ∧
    (sendings.map (·.fill)).Nodup ∧
    ∀ fill, fill ∈ sendings.map (·.fill) ↔ st.cache.Reached Cache.Stage.hasBegun fill := by
  intro st sendings
  refine ⟨?_, notes_reached s (fun st act => act.sending? s st) (·.fill) (fun _ _ fill => step_begun fill)
    (fun st act a h => ?_) acts⟩
  · simp only [st, sendings]
    induction acts using List.reverseRecOn with
    | nil => rfl
    | append_singleton acts act ih =>
      rw [run_snoc, notes_snoc, step_sent, ih, List.map_append]
      cases act.sending? s (run s .new acts) <;> rfl
  · obtain ⟨-, ⟨f, hf, hqueued, -⟩, -⟩ := step_sending h
    simp [Cache.St.Reached, hf, hqueued, Cache.Stage.hasBegun]

/-- every fill that has ended with an outcome was counted once -/
theorem run_answered (s : Setting) (acts : List Act) :
    let cache := (run s .new acts).cache
    cache.metrics.rpcTotal = cache.census Cache.Stage.isAnswered := by
  intro cache
  obtain ⟨hnodup, hiff⟩ := notes_reached s (fun st act => act.answered? st) id
    (fun _ _ fill => step_answered s fill) (fun st act a h => by
      obtain ⟨f, _, _, hf, hrunning, -, -⟩ := step_replied (s := s) h
      simp [Cache.St.Reached, hf, hrunning, Cache.Stage.isAnswered]) acts
  rw [← (run_single s acts).2.census_eq hnodup hiff, List.length_map]
  simp only [cache]
  clear hnodup hiff
  induction acts using List.reverseRecOn with
  | nil => rfl
  | append_singleton acts act ih => rw [run_snoc, notes_snoc, step_rpcTotal, ih, List.length_append]

/-- no fill is dropped -/
theorem run_undropped (s : Setting) (acts : List Act) : (run s .new acts).cache.census Cache.Stage.isDropped = 0 := by
  have hnone : ∀ fill, ¬(run s .new acts).cache.Reached Cache.Stage.isDropped fill := by
    intro fill
    induction acts using List.reverseRecOn with
    | nil => exact new_unreached _ fill
    | append_singleton acts act ih =>
      rw [run_snoc, step_reached rfl (fun cache a hissued id before after hturn => ?_) fill]
      · exact ih
      · cases hissued <;> cases hturn <;> rfl
  exact ((run_single s acts).2.census_eq List.nodup_nil fun fill => iff_of_false List.not_mem_nil (hnone fill)).symm

/-- the requests that were sent for the loads of an operation -/
def sendingsOf (asked : List Asking) (sendings : List Sending) (id : Nat) : List Sending :=
  sendings.filter fun c => asked.any fun a => decide (a.visit = id ∧ a.admission.lead? = some c.fill)

/-- no more requests are sent for an operation than it asks for loads -/
theorem length_sendingsOf_le {asked : List Asking} {sendings : List Sending} (h : (sendings.map (·.fill)).Nodup)
    (id : Nat) : (sendingsOf asked sendings id).length ≤ (loadsOf asked id).length := by
  have hnodup : ((sendingsOf asked sendings id).map (·.fill)).Nodup := h.sublist (List.filter_sublist.map _)
  have hsub : (sendingsOf asked sendings id).map (·.fill) ⊆
      (asked.filter fun a => decide (a.visit = id)).filterMap (·.admission.lead?) := by
    intro fill hfill
    obtain ⟨c, hc, rfl⟩ := List.mem_map.1 hfill
    obtain ⟨a, ha, hled⟩ := List.any_eq_true.1 (List.mem_filter.1 hc).2
    obtain ⟨hvisit, hlead⟩ := of_decide_eq_true hled
    exact List.mem_filterMap.2 ⟨a, List.mem_filter.2 ⟨ha, by simpa using hvisit⟩, hlead⟩
  calc (sendingsOf asked sendings id).length
      = ((sendingsOf asked sendings id).map (·.fill)).length := (List.length_map _).symm
    _ ≤ ((asked.filter fun a => decide (a.visit = id)).filterMap (·.admission.lead?)).length :=
      (List.subperm_of_subset hnodup hsub).length_le
    _ ≤ (asked.filter fun a => decide (a.visit = id)).length := List.length_filterMap_le _ _
    _ = (loadsOf asked id).length := (List.length_map _).symm

theorem Operation.length_loads_le (o : Options) (op : Operation) :
    (op.loads o).length ≤ if op = .defi then 4 else 1 := by
  cases op <;> simp [loads, Defi.Slot.all]

/-! ## Runs -/

/-- the misses are the fills -/
theorem run_misses (s : Setting) (acts : List Act) :
    (run s .new acts).cache.store.counters.misses = (run s .new acts).cache.fills.length := by
  obtain ⟨hlookups, hjobs⟩ := run_asked s acts
  have hmisses := (Prod.mk.inj (Prod.mk.inj hlookups).2).2
  have hlength := congrArg List.length hjobs
  rw [Cache.St.jobs, List.length_map, List.length_filterMap_eq_countP] at hlength
  rw [hmisses, hlength]
  refine List.countP_congr fun a _ => ?_
  rw [Option.isSome_map]

/-- a request is that of the job of its fill -/
theorem run_requests (s : Setting) (acts : List Act) :
    ∀ c ∈ notes s (fun st act => act.sending? s st) .new acts,
      ∃ q, (c.fill, q) ∈ (run s .new acts).cache.jobs ∧ c.request = q.request s.ns := by
  induction acts using List.reverseRecOn with
  | nil => exact fun c hc => absurd hc List.not_mem_nil
  | append_singleton acts act ih =>
    have hjobs : ∀ p ∈ (run s .new acts).cache.jobs, p ∈ (step s (run s .new acts) act).cache.jobs := by
      intro p hp
      cases h : act.asking? s (run s .new acts) with
      | none =>
        rw [(step_unasked (run_single s acts).1 h).2]
        exact hp
      | some a =>
        rw [step_asked h, Cache.fetch_jobs]
        exact List.mem_append_left _ hp
    intro c hc
    rw [run_snoc]
    rw [notes_snoc, List.mem_append, Option.mem_toList] at hc
    rcases hc with hc | hc
    · obtain ⟨q, hq, he⟩ := ih c hc
      exact ⟨q, hjobs _ hq, he⟩
    · obtain ⟨-, ⟨f, hf, -, he⟩, -⟩ := step_sending hc
      obtain ⟨hmem, hid⟩ := Cache.fill?_some hf
      exact ⟨f.job, hjobs _ (List.mem_map.2 ⟨f, hmem, by rw [hid]⟩), he⟩

/-- **The node is asked once for each miss.** In every run of a repository the requests that were sent and the fills
that still wait to begin are together the misses. Hits, coalesced lookups and misses are the loads that were served,
that joined and that were told to lead; no two loads lead one fill and no fill sends twice, and each request is that of
the load that leads its fill. An operation asks for its own loads only, each once, so at most four requests are sent for
the lending settings and at most one for any other operation. Once no fill is in progress and none has crashed, the
counted answers are the misses. -/
theorem calls_are_misses (s : Setting) (acts : List Act) :
    let st := run s .new acts
    let started := notes s (fun st act => act.start? st) .new acts
    let asked := notes s (fun st act => act.asking? s st) .new acts
    let sendings := notes s (fun st act => act.sending? s st) .new acts
    let stats := st.cache.store.stats s.setup.policy.maxSize
    st.sent = sendings.map (·.request) ∧
    st.sent.length + st.cache.queued.length = stats.counters.misses ∧
    stats.counters.lookups = (asked.countP (·.admission.isHit), asked.countP (·.admission.isJoin),
      asked.countP (·.admission.lead?.isSome)) ∧
    (asked.filterMap (·.admission.lead?)).Nodup ∧ (sendings.map (·.fill)).Nodup ∧
    (∀ c ∈ sendings, ∃ a ∈ asked, a.admission.lead? = some c.fill ∧ c.request = a.load.job.request s.ns) ∧
    (∀ p ∈ started, loadsOf asked p.1 <+: p.2.loads s.options ∧
      (sendingsOf asked sendings p.1).length ≤ if p.2 = .defi then 4 else 1) ∧
    (stats.pendingFills = 0 → st.cache.census Cache.Stage.hasCrashed = 0 →
      st.cache.metrics.rpcTotal = stats.counters.misses) := by
  intro st started asked sendings stats
  have hsingle : Cache.Single st.cache := (run_single s acts).2
  have hmisses : stats.counters.misses = st.cache.fills.length := run_misses s acts
  obtain ⟨hlookups, hjobs⟩ := run_asked s acts
  obtain ⟨hsent, hnodup, hbegun⟩ := run_sent s acts
  have hbegan : st.sent.length = st.cache.census Cache.Stage.hasBegun := by
    rw [← hsingle.census_eq hnodup hbegun, hsent, List.length_map, List.length_map]
  have htracked := run_tracked s acts
  refine ⟨hsent, ?_, hlookups, ?_, hnodup, fun c hc => ?_, fun p hp => ⟨htracked.loads p hp, ?_⟩,
    fun hidle hcrashed => ?_⟩
  -- a fill that does not wait has sent its request, since none is dropped
  · have hwaiting := Cache.census_waiting st.cache
    have hundropped : st.cache.census Cache.Stage.isDropped = 0 := run_undropped s acts
    rw [Cache.length_queued, hbegan, hmisses]
    omega
  · have hids : asked.filterMap (·.admission.lead?) = st.cache.fills.map (·.id) := by
      have hfst := congrArg (List.map Prod.fst) hjobs
      rw [Cache.St.jobs, List.map_map, List.map_filterMap] at hfst
      refine Eq.trans ?_ hfst.symm
      refine List.filterMap_congr fun a _ => ?_
      cases a.admission.lead? <;> rfl
    rw [hids]
    exact hsingle.ids
  · obtain ⟨q, hq, he⟩ := run_requests s acts c hc
    rw [hjobs] at hq
    obtain ⟨a, ha, hled⟩ := List.mem_filterMap.1 hq
    obtain ⟨fill, hlead, hpair⟩ := Option.map_eq_some_iff.1 hled
    obtain ⟨rfl, rfl⟩ := Prod.mk.inj hpair
    exact ⟨a, ha, hlead, he⟩
  · calc (sendingsOf asked sendings p.1).length
        ≤ (loadsOf asked p.1).length := length_sendingsOf_le hnodup p.1
      _ ≤ (p.2.loads s.options).length := (htracked.loads p hp).length_le
      _ ≤ if p.2 = .defi then 4 else 1 := Operation.length_loads_le s.options p.2
  -- a fill that does not hold its key was answered, which was counted, or has crashed
  · have hholding := Cache.census_holding st.cache
    have hpending : stats.pendingFills = st.cache.census Cache.Stage.holds := hsingle.pending_length
    have htotal : st.cache.metrics.rpcTotal = st.cache.census Cache.Stage.isAnswered := run_answered s acts
    rw [hidle] at hpending
    rw [htotal, hmisses]
    omega

/-- two operations need the supply of one token; the second joins the fill of the first -/
def sharedSupply : List Act :=
  [.visit (.totalSupply .zero), .visit (.findToken .zero), .ask 1, .ask 2, .begin 1,
    .reply 1 (.error (.remote 3 "no code")), .tell 1, .resume 1, .resume 2]

/-- once nothing is in progress, the one question that was asked and counted is the one miss -/
theorem sharedSupply_calls :
    let st := run .plain .new sharedSupply
    st.cache.store.pending.length = 0 ∧ st.cache.census Cache.Stage.hasCrashed = 0 ∧
    st.cache.store.counters.lookups = (0, 1, 1) ∧ st.sent.length = 1 ∧ st.cache.metrics.rpcTotal = 1 := by
  intro st
  obtain ⟨-, hsent, -, -, -, -, -, htotal⟩ := calls_are_misses .plain sharedSupply
  have hst : run .plain .new sharedSupply = st := rfl
  rw [hst] at hsent htotal
  have hidle : st.cache.store.pending.length = 0 := rfl
  have hcrashed : st.cache.census Cache.Stage.hasCrashed = 0 := rfl
  have hlookups : st.cache.store.counters.lookups = (0, 1, 1) := rfl
  have hqueued : st.cache.queued.length = 0 := rfl
  have hmisses : st.cache.store.counters.misses = 1 := (Prod.mk.inj (Prod.mk.inj hlookups).2).2
  simp only [Cache.Store.stats, hqueued, hmisses] at hsent htotal
  exact ⟨hidle, hcrashed, hlookups, hsent, htotal hidle hcrashed⟩

end Repository

end ChainBridge
