/-
The operations under way in a repository, and what they have to do with its cache.

`Issues` lists what an act of a repository may do to its cache: a caller comes with the query of its key, a fill ends
with what the query of its job makes of a reply, and nothing is looked up, stored or dropped besides. Whatever each of
these keeps, every act of the repository keeps (`step_cache`). `VisitStep` says all that an act can do to the operations
under way: one starts, asks for its next load, returns or is given up. An operation knows for which of its loads each of
its callers stands (`Asked`), and does so throughout every run (`run_attended`).
-/
import Mathlib
import ChainBridge.Proofs.Cache.Contents
import ChainBridge.Proofs.Repository.Keys
import ChainBridge.Repository.Machine

namespace ChainBridge.Repository

theorem run_snoc (s : Setting) (st : St) (l : List Act) (a : Act) : run s st (l ++ [a]) = step s (run s st l) a :=
  List.foldl_append

theorem visit?_some {st : St} {id : Nat} {v : Visit} (hv : st.visit? id = some v) : v ∈ st.visits ∧ v.id = id :=
  ⟨List.mem_of_find?_eq_some hv, by simpa using List.find?_some hv⟩

/-! ## What is done to the cache -/

/-- what an act of a repository may do to its cache -/
inductive Issues (s : Setting) (cache : Cache.St Key Value Rpc.Error Rpc.Query) :
    Act → Cache.Act Key Value Rpc.Error Rpc.Query → Prop where
  | ask (visit : Nat) (key : Key) (ttl : Option Nat) (q : Rpc.Query) : key.query? = some q →
      Issues s cache (.ask visit) (.fetch key ttl q)
  | resume (visit caller : Nat) : Issues s cache (.resume visit) (.leave caller)
  | giveUp (visit caller : Nat) : Issues s cache (.giveUp visit) (.leave caller)
  | begin (fill : Nat) : Issues s cache (.begin fill) (.begin fill)
  | reply (fill : Nat) (result : Except Rpc.Error Json) (f : Cache.Fill Key Value Rpc.Error Rpc.Query) :
      cache.fill? fill = some f → f.stage = .running →
      Issues s cache (.reply fill result) (.finish fill (f.job.conclude s.ns result))
  | crash (fill : Nat) : Issues s cache (.crash fill) (.crash fill)
  | tell (fill : Nat) : Issues s cache (.tell fill) (.tell fill)
  | invalidate (key : Key) : Issues s cache (.invalidate key) (.invalidate key)
  | clear : Issues s cache .clear .clear
  | purge : Issues s cache .purge .purge
  | advance (ms : Nat) : Issues s cache (.advance ms) (.advance ms)

section

variable {s : Setting} {P : Cache.St Key Value Rpc.Error Rpc.Query → Prop} {act : Act}

theorem leaveAll_of (hstep : ∀ cache caller, P cache → P (cache.leave caller))
    {cache : Cache.St Key Value Rpc.Error Rpc.Query} (h : P cache) (ids : List Nat) : P (Cache.leaveAll cache ids) := by
  induction ids generalizing cache with
  | nil => exact h
  | cons id ids ih => exact ih (hstep cache id h)

/-- what holds of the cache, whatever a reply counts, and is kept by all that an act may do to it, holds after the act
-/
theorem step_cache (hcounted : (∃ fill result, act = .reply fill result) → ∀ cache metrics, P cache →
      P { cache with metrics := metrics })
    (hstep : ∀ cache a, Issues s cache act a → P cache → P (Cache.step s.setup cache a)) {st : St} (h : P st.cache) :
    P (step s st act).cache := by
  cases act with
  | visit op => exact h
  | ask visit =>
    simp only [step, St.ask]
    split
    · exact h
    · rename_i v _
      split
      · exact h
      · rename_i l hnext
        have hquery := v.operation.loads_query s.options l (List.mem_of_getElem? hnext)
        exact hstep _ _ (.ask visit l.key l.ttl l.job hquery) h
  | resume visit =>
    simp only [step, St.resume]
    split
    · exact h
    · split
      · exact leaveAll_of (fun cache caller => hstep cache _ (.resume visit caller)) h _
      · exact h
  | giveUp visit =>
    simp only [step, St.giveUp]
    split
    · exact h
    · exact leaveAll_of (fun cache caller => hstep cache _ (.giveUp visit caller)) h _
  | begin fill =>
    simp only [step, St.begin]
    split
    · exact hstep _ _ (.begin fill) h
    · exact h
  | reply fill result =>
    simp only [step, St.reply]
    split
    · rename_i i key ttl q hf
      have hissued : Issues s { st.cache with metrics := st.cache.metrics.add (q.counter s.ns result) 1 }
          (.reply fill result) (.finish fill (q.conclude s.ns result)) :=
        .reply fill result ⟨i, key, ttl, q, .running⟩ hf rfl
      exact hstep _ _ hissued (hcounted ⟨fill, result, rfl⟩ _ _ h)
    · exact h
  | crash fill => exact hstep _ _ (.crash fill) h
  | tell fill => exact hstep _ _ (.tell fill) h
  | invalidate key => exact hstep _ _ (.invalidate key) h
  | clear => exact hstep _ _ .clear h
  | purge => exact hstep _ _ .purge h
  | advance ms => exact hstep _ _ (.advance ms) h

end

/-! ## Callers and loads -/

/-- whether a caller in a cache stands for a load, if it is still there -/
def StandsFor (cache : Cache.St Key Value Rpc.Error Rpc.Query) (caller : Nat) (l : Load) : Prop :=
  caller < cache.nextCaller ∧ ∀ g ∈ cache.callers, g.id = caller → g.key = l.key

/-- whether the callers of an operation stand for its first loads, in order -/
def Asked (o : Options) (cache : Cache.St Key Value Rpc.Error Rpc.Query) (v : Visit) : Prop :=
  ∃ asked rest, v.operation.loads o = asked ++ rest ∧ List.Forall₂ (StandsFor cache) v.callers asked

section

variable {s : Setting} {cache cache' : Cache.St Key Value Rpc.Error Rpc.Query}

/-- a caller stands for one load whatever is done to the cache -/
theorem StandsFor.step {caller : Nat} {l : Load} (h : StandsFor cache caller l)
    (act : Cache.Act Key Value Rpc.Error Rpc.Query) : StandsFor (Cache.step s.setup cache act) caller l :=
  Cache.step_caller s.setup act h

/-- the caller that a fetch of a load admits stands for the load -/
theorem standsFor_fetch (h : ∀ g ∈ cache.callers, g.id < cache.nextCaller) (l : Load) :
    StandsFor (cache.fetch s.setup l.key l.ttl l.job).1 (cache.fetch s.setup l.key l.ttl l.job).2 l := by
  obtain ⟨ticket, -, hjoined⟩ := Cache.fetch_admits s.setup cache l.key l.ttl l.job
  obtain ⟨hcaller, hnext⟩ := Cache.fetch_caller s.setup cache l.key l.ttl l.job
  rw [hcaller]
  refine ⟨by omega, fun g hg hid => ?_⟩
  rw [hjoined, List.mem_append, List.mem_singleton] at hg
  rcases hg with hg | rfl
  · have hlt := h g hg
    omega
  · rfl

theorem Asked.imp {o : Options} {v : Visit} (h : Asked o cache v)
    (himp : ∀ caller l, StandsFor cache caller l → StandsFor cache' caller l) : Asked o cache' v := by
  obtain ⟨asked, rest, hloads, hcallers⟩ := h
  exact ⟨asked, rest, hloads, hcallers.imp himp⟩

/-- every caller of an operation stands for one of its loads -/
theorem Asked.stands {o : Options} {v : Visit} (h : Asked o cache v) {caller : Nat} (hcaller : caller ∈ v.callers) :
    ∃ l ∈ v.operation.loads o, StandsFor cache caller l := by
  obtain ⟨asked, rest, hloads, hcallers⟩ := h
  obtain ⟨i, hi, rfl⟩ := List.mem_iff_getElem.1 hcaller
  have hi' : i < asked.length := hcallers.length_eq ▸ hi
  refine ⟨asked[i], hloads ▸ List.mem_append_left rest (List.getElem_mem hi'), hcallers.get hi hi'⟩

/-- the loads that an operation has not asked for yet -/
theorem Asked.next?_eq {o : Options} {v : Visit} {asked rest : List Load} (hloads : v.operation.loads o = asked ++ rest)
    (hcallers : List.Forall₂ (StandsFor cache) v.callers asked) : v.next? o = rest.head? := by
  rw [Visit.next?, hloads, hcallers.length_eq, List.getElem?_append_right le_rfl, Nat.sub_self,
    List.head?_eq_getElem?]

/-- an operation that asks for its next load gets a caller that stands for it -/
theorem Asked.snoc {o : Options} {v : Visit} {l : Load} {caller : Nat} (h : Asked o cache v)
    (hnext : v.next? o = some l) (hcaller : StandsFor cache caller l) :
    Asked o cache { v with callers := v.callers ++ [caller] } := by
  obtain ⟨asked, rest, hloads, hcallers⟩ := h
  rw [Asked.next?_eq hloads hcallers] at hnext
  obtain ⟨rest', rfl⟩ := List.head?_eq_some_iff.1 hnext
  exact ⟨asked ++ [l], rest', by simpa using hloads, List.rel_append hcallers (.cons hcaller .nil)⟩

/-- the callers of an operation that has asked for all of its loads stand for them -/
theorem Asked.all {o : Options} {v : Visit} (h : Asked o cache v) (hnext : v.next? o = none) :
    List.Forall₂ (StandsFor cache) v.callers (v.operation.loads o) := by
  obtain ⟨asked, rest, hloads, hcallers⟩ := h
  rw [Asked.next?_eq hloads hcallers, List.head?_eq_none_iff] at hnext
  rw [hloads, hnext, List.append_nil]
  exact hcallers

end

/-! ## What callers come away with -/

section

variable {Fits : Key → Rpc.Query → Prop} {R : Key → Option (Except Rpc.Error Value) → Prop}
  {cache : Cache.St Key Value Rpc.Error Rpc.Query}

/-- a caller that comes away from a lawful cache brings what may come of the load that it stands for -/
theorem StandsFor.settled (h : Cache.Lawful Fits R cache) {caller : Nat} {l : Load} (hstands : StandsFor cache caller l)
    {settled : Cache.Settled Value Rpc.Error} (hs : cache.settled? caller = some settled) :
    ∃ outcome, R l.key outcome ∧ settled = .ofOutcome outcome := by
  obtain ⟨g, hg, hid, outcome, hr, he⟩ := h.settled hs
  rw [hstands.2 g hg hid] at hr
  exact ⟨outcome, hr, he⟩

/-- callers come away together just if each of them does -/
theorem settledAll?_eq_some_iff {ids : List Nat} {settled : List (Cache.Settled Value Rpc.Error)} :
    Cache.settledAll? cache ids = some settled ↔
      List.Forall₂ (fun caller sv => cache.settled? caller = some sv) ids settled := by
  constructor
  · intro hs
    induction ids generalizing settled with
    | nil =>
      obtain rfl := Option.some.inj hs
      exact .nil
    | cons id ids ih =>
      obtain ⟨first, hfirst, hs⟩ := Option.bind_eq_some_iff.1 hs
      obtain ⟨others, hothers, hs⟩ := Option.bind_eq_some_iff.1 hs
      obtain rfl := Option.some.inj hs
      exact .cons hfirst (ih hothers)
  · intro hcame
    induction hcame with
    | nil => rfl
    | cons hfirst _ ih => simp only [Cache.settledAll?, hfirst, ih]; rfl

/-- callers that all come away from a lawful cache bring what may come of their loads -/
theorem settledAll?_lawful (h : Cache.Lawful Fits R cache) {ids : List Nat} {loads : List Load}
    (hstand : List.Forall₂ (StandsFor cache) ids loads) {settled : List (Cache.Settled Value Rpc.Error)}
    (hs : Cache.settledAll? cache ids = some settled) :
    List.Forall₂ (fun l sv => ∃ outcome, R l.key outcome ∧ sv = .ofOutcome outcome) loads settled := by
  have hcame := settledAll?_eq_some_iff.1 hs
  clear hs
  induction hstand generalizing settled with
  | nil =>
    cases hcame
    exact .nil
  | cons hfirst _ ih =>
    cases hcame with
    | cons hfirst' hothers => exact .cons (hfirst.settled h hfirst') (ih hothers)

end

/-! ## What is done to the operations under way -/

/-- an operation has one caller more -/
def Visit.joined (v : Visit) (caller : Nat) : Visit := { v with callers := v.callers ++ [caller] }

/-- all that an act can do to the operations under way and to the answers that were given -/
inductive VisitStep (s : Setting) (st st' : St) (act : Act) : Prop where
  | quiet : (∀ op, act ≠ .visit op) →
      (∀ id, act = .ask id → ∀ v, st.visit? id = some v → v.next? s.options = none) → st'.visits = st.visits →
      st'.nextVisit = st.nextVisit → st'.returned = st.returned → VisitStep s st st' act
  | started (op : Operation) : act = .visit op → st' = st.visit op → VisitStep s st st' act
  | asked (v : Visit) (l : Load) : act = .ask v.id → st.visit? v.id = some v → v.next? s.options = some l →
      st'.cache = (st.cache.fetch s.setup l.key l.ttl l.job).1 →
      st'.visits = st.visits.map (fun w =>
        if w.id == v.id then w.joined (st.cache.fetch s.setup l.key l.ttl l.job).2 else w) →
      st'.nextVisit = st.nextVisit → st'.returned = st.returned → VisitStep s st st' act
  | returned (v : Visit) (settled : List (Cache.Settled Value Rpc.Error)) : act = .resume v.id →
      st.visit? v.id = some v → v.next? s.options = none → Cache.settledAll? st.cache v.callers = some settled →
      st' = { st.leave v with
        returned := st.returned ++ [⟨v.id, v.operation, settled, v.operation.answer s.options settled⟩] } →
      VisitStep s st st' act
  | left (v : Visit) : act = .giveUp v.id → st.visit? v.id = some v → st' = st.leave v → VisitStep s st st' act

theorem step_visits (s : Setting) (st : St) (act : Act) : VisitStep s st (step s st act) act := by
  cases act with
  | visit op => exact .started op rfl rfl
  | ask visit =>
    simp only [step, St.ask]
    cases hv : st.visit? visit with
    | none => exact .quiet (by simp) (by simp [hv]) rfl rfl rfl
    | some v =>
      obtain ⟨-, rfl⟩ := visit?_some hv
      cases hnext : v.next? s.options with
      | none =>
        simp only [hnext]
        exact .quiet (by simp) (by simp [hv, hnext]) rfl rfl rfl
      | some l =>
        simp only [hnext]
        exact .asked v l rfl hv hnext rfl rfl rfl rfl
  | resume visit =>
    simp only [step, St.resume]
    cases hv : st.visit? visit with
    | none => exact .quiet (by simp) (by simp) rfl rfl rfl
    | some v =>
      obtain ⟨-, rfl⟩ := visit?_some hv
      simp only
      split
      · rename_i settled hnext hsettled
        exact .returned v settled rfl hv hnext hsettled rfl
      · exact .quiet (by simp) (by simp) rfl rfl rfl
  | giveUp visit =>
    simp only [step, St.giveUp]
    cases hv : st.visit? visit with
    | none => exact .quiet (by simp) (by simp) rfl rfl rfl
    | some v =>
      obtain ⟨-, rfl⟩ := visit?_some hv
      exact .left v rfl hv rfl
  | begin fill =>
    simp only [step, St.begin]
    split <;> exact .quiet (by simp) (by simp) rfl rfl rfl
  | reply fill result =>
    simp only [step, St.reply]
    split <;> exact .quiet (by simp) (by simp) rfl rfl rfl
  | _ => exact .quiet (by simp) (by simp) rfl rfl rfl

/-! ## Operations that know their callers -/

/-- operations have numbers of their own, and each knows for which load each of its callers stands -/
structure Attended (s : Setting) (st : St) : Prop where
  ids : (st.visits.map (·.id)).Nodup
  fresh : ∀ v ∈ st.visits, v.id < st.nextVisit
  below : ∀ g ∈ st.cache.callers, g.id < st.cache.nextCaller
  asked : ∀ v ∈ st.visits, Asked s.options st.cache v

theorem new_attended (s : Setting) : Attended s .new := by
  refine ⟨List.nodup_nil, ?_, ?_, ?_⟩ <;> exact fun _ h => absurd h List.not_mem_nil

/-- after an act callers have numbers below the next, and stand for what they stood for -/
theorem step_stands (s : Setting) {st : St} (h : ∀ g ∈ st.cache.callers, g.id < st.cache.nextCaller) (act : Act) :
    (∀ g ∈ (step s st act).cache.callers, g.id < (step s st act).cache.nextCaller) ∧
    ∀ caller l, StandsFor st.cache caller l → StandsFor (step s st act).cache caller l := by
  refine step_cache (P := fun cache => (∀ g ∈ cache.callers, g.id < cache.nextCaller) ∧
    ∀ caller l, StandsFor st.cache caller l → StandsFor cache caller l) (fun _ _ _ hcache => hcache)
    (fun cache a _ hcache => ?_) ⟨h, fun _ _ hstands => hstands⟩
  exact ⟨Cache.step_below s.setup hcache.1 a, fun caller l hstands => (hcache.2 caller l hstands).step a⟩

namespace Attended

variable {s : Setting} {st : St}

theorem eq_of_id (h : Attended s st) {v w : Visit} (hv : v ∈ st.visits) (hw : w ∈ st.visits) (hid : v.id = w.id) :
    v = w :=
  List.inj_on_of_nodup_map h.ids hv hw hid

theorem step (h : Attended s st) (act : Act) : Attended s (step s st act) := by
  obtain ⟨hbelow, hstands⟩ := step_stands s h.below act
  have hasked : ∀ v ∈ st.visits, Asked s.options (Repository.step s st act).cache v :=
    fun v hv => (h.asked v hv).imp hstands
  have hfewer : ∀ {visits : List Visit}, visits.Sublist st.visits → (Repository.step s st act).visits = visits →
      (Repository.step s st act).nextVisit = st.nextVisit → Attended s (Repository.step s st act) := by
    intro visits hsub hvisits hnext
    refine ⟨?_, fun v hv => ?_, hbelow, fun v hv => ?_⟩
    · rw [hvisits]
      exact h.ids.sublist (hsub.map _)
    · rw [hnext]
      exact h.fresh v (hsub.subset (hvisits ▸ hv))
    · exact hasked v (hsub.subset (hvisits ▸ hv))
  cases step_visits s st act with
  | quiet _ _ hvisits hnext _ => exact hfewer (List.Sublist.refl _) hvisits hnext
  | returned v settled _ _ _ _ he => exact hfewer List.filter_sublist (by rw [he]; rfl) (by rw [he]; rfl)
  | left v _ _ he => exact hfewer List.filter_sublist (by rw [he]; rfl) (by rw [he]; rfl)
  | started op hact he =>
    subst hact
    refine ⟨?_, ?_, hbelow, ?_⟩
    · simp only [Repository.step, St.visit, List.map_append]
      refine h.ids.append (List.nodup_singleton _) fun id hid hnew => ?_
      obtain ⟨v, hv, rfl⟩ := List.mem_map.1 hid
      have hlt := h.fresh v hv
      have heq : v.id = st.nextVisit := by simpa using hnew
      omega
    · intro v hv
      rcases List.mem_append.1 hv with hv | hv
      · exact Nat.lt_succ_of_lt (h.fresh v hv)
      · rw [List.mem_singleton.1 hv]
        exact Nat.lt_succ_self _
    · intro v hv
      rcases List.mem_append.1 hv with hv | hv
      · exact hasked v hv
      · rw [List.mem_singleton.1 hv]
        exact ⟨[], op.loads s.options, rfl, .nil⟩
  | asked v l _ hv hnext hcache hvisits hsame _ =>
    obtain ⟨hmem, -⟩ := visit?_some hv
    have hids : ∀ w : Visit, (if w.id == v.id then
        w.joined (st.cache.fetch s.setup l.key l.ttl l.job).2 else w).id = w.id := by
      intro w
      split <;> rfl
    refine ⟨?_, fun w' hw' => ?_, hbelow, fun w' hw' => ?_⟩
    · simp only [hvisits, List.map_map, Function.comp_def, hids]
      exact h.ids
    · rw [hvisits] at hw'
      obtain ⟨w, hw, rfl⟩ := List.mem_map.1 hw'
      rw [hids, hsame]
      exact h.fresh w hw
    · rw [hvisits] at hw'
      obtain ⟨w, hw, rfl⟩ := List.mem_map.1 hw'
      split
      · rename_i hid
        obtain rfl : w = v := h.eq_of_id hw hmem (by simpa using hid)
        refine (hasked w hw).snoc hnext ?_
        rw [hcache]
        exact standsFor_fetch h.below l
      · exact hasked w hw

end Attended

theorem run_attended (s : Setting) (acts : List Act) : Attended s (run s .new acts) := by
  induction acts using List.reverseRecOn with
  | nil => exact new_attended s
  | append_singleton acts act ih =>
    rw [run_snoc]
    exact ih.step act

end ChainBridge.Repository
