/-
A repository among others.

The cache of a repository is not its own: others may read it, store in it, start fills of their own, end any fill as
they like and drop tasks. An `Event` is an act of the repository or something that others do to its cache, and `after`
is the state that a sequence of events leads to from the beginning. Whatever others do:
- an operation that has returned drew its answer from what its callers came away with when it returned, and each of
  them stood for one load (`returned_brought`); one whose callers have all come away returns (`resume_returns`);
- every value in the cache, and every value that a caller comes away with, was offered to the books under its key, and
  was kept if there was room (`after_holding`);
- what an event stores it has offered, and a fill offers under its own key (`happen_stored`, `offer_of_ends`); the fill
  that a load was told to lead is under the key of the load (`led_fill`).
-/
import Mathlib
import ChainBridge.Proofs.Cache.History
import ChainBridge.Proofs.Repository.Notes

namespace ChainBridge.Repository

/-! ## Events -/

inductive Event where
  | own (act : Act)
  /-- others use the cache -/
  | other (act : Cache.Act Key Value Rpc.Error Rpc.Query)

def happen (s : Setting) (st : St) : Event → St
  | .own act => step s st act
  | .other act => { st with cache := Cache.step s.setup st.cache act }

/-- a new repository after some events -/
def after (s : Setting) (events : List Event) : St := events.foldl (happen s) .new

theorem after_snoc (s : Setting) (events : List Event) (last : Event) :
    after s (events ++ [last]) = happen s (after s events) last :=
  List.foldl_append

/-- what an event offers to the books -/
def Event.offer? (s : Setting) (st : St) : Event → Option (Cache.Offer Key Value)
  | .own (.reply fill result) => (st.cache.fill? fill).bind fun f =>
      (Cache.Act.finish fill (f.job.conclude s.ns result)).offer? s.setup st.cache
  | .own _ => none
  | .other act => act.offer? s.setup st.cache

/-- the fill that an event ends -/
def Event.ends? : Event → Option Nat
  | .own (.reply fill _) | .other (.finish fill _) => some fill
  | _ => none

/-- a load that an operation asks for -/
def Event.asking? (s : Setting) (st : St) : Event → Option Asking
  | .own act => act.asking? s st
  | .other _ => none

/-! ## What events do to the cache -/

section

variable {s : Setting} {P : Cache.St Key Value Rpc.Error Rpc.Query → Prop}

/-- an event that offers something is an act on the cache that does, apart from what is counted -/
theorem Event.offer_cache {st : St} {ev : Event} {o : Cache.Offer Key Value} (ho : ev.offer? s st = some o) :
    ∃ (metrics : Metrics.Registry) (act : Cache.Act Key Value Rpc.Error Rpc.Query),
      act.offer? s.setup { st.cache with metrics := metrics } = some o ∧
      (happen s st ev).cache = Cache.step s.setup { st.cache with metrics := metrics } act := by
  cases ev with
  | other act => exact ⟨st.cache.metrics, act, ho, rfl⟩
  | own act =>
    cases act with
    | reply fill result =>
      obtain ⟨⟨id, key, ttl, q, stage⟩, hf, ho⟩ := Option.bind_eq_some_iff.1 ho
      obtain ⟨f', hf', hrun, -⟩ := Cache.Act.finish_offer ho
      obtain rfl := Option.some.inj (hf'.symm.trans hf)
      obtain rfl : stage = .running := hrun
      refine ⟨st.cache.metrics.add (q.counter s.ns result) 1, .finish fill (q.conclude s.ns result), ho, ?_⟩
      simp only [happen, step, St.reply, hf]
      rfl
    | _ => exact absurd ho (by simp [offer?])

/-- what is kept whatever is counted, and by all that is done to a cache and offers no more than an event does, is kept
by the event -/
theorem happen_cache {st : St} {ev : Event} (hcounted : ∀ cache metrics, P cache → P { cache with metrics := metrics })
    (hstep : ∀ cache a, (∀ o, a.offer? s.setup cache = some o → ev.offer? s st = some o) → P cache →
      P (Cache.step s.setup cache a)) (h : P st.cache) : P (happen s st ev).cache := by
  cases ev with
  | other act => exact hstep st.cache act (fun _ ho => ho) h
  | own act =>
    by_cases hreply : ∃ fill result, act = .reply fill result
    · obtain ⟨fill, result, rfl⟩ := hreply
      simp only [happen, step, St.reply]
      split
      · rename_i id key ttl q hf
        refine hstep _ (.finish fill (q.conclude s.ns result)) (fun o ho => ?_) (hcounted _ _ h)
        exact Option.bind_eq_some_iff.2 ⟨_, hf, ho⟩
      · exact h
    · refine step_cache (fun hr => absurd hr hreply) (fun cache a hissued hcache => ?_) h
      refine hstep cache a (fun o ho => ?_) hcache
      cases hissued with
      | reply fill result => exact absurd ⟨fill, result, rfl⟩ hreply
      | _ => exact absurd ho (by simp [Cache.Act.offer?])

/-- what an event stores it has offered -/
theorem happen_stored {st : St} (hs : st.cache.store.Wf) (ev : Event) :
    ∀ e ∈ (happen s st ev).cache.store.entries, e ∈ st.cache.store.entries ∨
      ∃ o, ev.offer? s st = some o ∧ e.key = o.key ∧ e.value = o.value := by
  refine (happen_cache (P := fun cache => cache.store.Wf ∧ ∀ e ∈ cache.store.entries, e ∈ st.cache.store.entries ∨
    ∃ o, ev.offer? s st = some o ∧ e.key = o.key ∧ e.value = o.value) (fun _ _ h => h) (fun cache a ho h => ?_)
    ⟨hs, fun e he => .inl he⟩).2
  refine ⟨Cache.step_lasting (Cache.wf_lasting s.setup.policy.maxSize) cache a h.1, fun e he => ?_⟩
  rw [(Cache.step_edits s.setup h.1 a).entries, List.mem_append] at he
  rcases he with he | he
  · exact h.2 e (List.mem_filter.1 he).1
  · obtain ⟨key, value, ttl, hwrites, rfl⟩ := Cache.mem_adds_iff.1 he
    obtain ⟨o, hoffer, rfl, rfl, -⟩ := Cache.writes_iff.1 hwrites
    exact .inr ⟨o, ho o hoffer, rfl, rfl⟩

/-- a value that is offered to be kept is kept if there is room -/
theorem happen_kept {st : St} (hs : st.cache.store.Wf) {ev : Event} {o : Cache.Offer Key Value}
    (ho : ev.offer? s st = some o) (hkept : o.ttl.isSome = true) (hroom : (o.room? s.setup).isSome = true) :
    ∃ e, (happen s st ev).cache.store.find? o.key = some e ∧ e.value = o.value := by
  obtain ⟨metrics, act, hoffer, hcache⟩ := Event.offer_cache ho
  obtain ⟨ttl, httl⟩ := Option.isSome_iff_exists.1 hkept
  have hwrites := Cache.writes_iff.2 ⟨o, hoffer, rfl, rfl, httl, hroom⟩
  rw [hcache]
  exact ⟨_, hwrites.find? hs, rfl⟩

/-- a fill offers under its own key -/
theorem Event.offer_of_ends {st : St} {ev : Event} {fill : Nat} (hends : ev.ends? = some fill)
    {o : Cache.Offer Key Value} (ho : ev.offer? s st = some o) :
    ∃ f ∈ st.cache.fills, f.id = fill ∧ o.key = f.key := by
  have hfinish : ∀ outcome, (Cache.Act.finish fill outcome).offer? s.setup st.cache = some o →
      ∃ f ∈ st.cache.fills, f.id = fill ∧ o.key = f.key := by
    intro outcome hoffer
    obtain ⟨f, hf, -, hkey, -⟩ := Cache.Act.finish_offer hoffer
    obtain ⟨hmem, hid⟩ := Cache.fill?_some hf
    exact ⟨f, hmem, hid, hkey⟩
  cases ev with
  | own act =>
    cases act with
    | reply id result =>
      obtain rfl := Option.some.inj hends
      obtain ⟨f, -, ho⟩ := Option.bind_eq_some_iff.1 ho
      exact hfinish _ ho
    | _ => exact absurd hends (by simp [ends?])
  | other act =>
    cases act with
    | finish id outcome =>
      obtain rfl := Option.some.inj hends
      exact hfinish outcome ho
    | _ => exact absurd hends (by simp [ends?])

/-- fills keep their numbers and their keys -/
theorem happen_keeps (s : Setting) (st : St) (ev : Event) {f : Cache.Fill Key Value Rpc.Error Rpc.Query}
    (hf : f ∈ st.cache.fills) : ∃ g ∈ (happen s st ev).cache.fills, g.id = f.id ∧ g.key = f.key := by
  refine happen_cache (P := fun cache => ∃ g ∈ cache.fills, g.id = f.id ∧ g.key = f.key) (fun _ _ h => h)
    (fun cache a _ h => ?_) ⟨f, hf, rfl, rfl⟩
  obtain ⟨g, hg, hid, hkey⟩ := h
  obtain ⟨g', hg', hid', hkey'⟩ := Cache.step_keeps s.setup cache a hg
  exact ⟨g', hg', hid'.trans hid, hkey'.trans hkey⟩

end

/-! ## Where values come from -/

/-- whether a value was offered to the books to be kept, which they did if there was room -/
def Offered (s : Setting) (events : List Event) (key : Key) (v : Value) : Prop :=
  ∃ pre ev post o, events = pre ++ ev :: post ∧ ev.offer? s (after s pre) = some o ∧ o.key = key ∧ o.value = v ∧
    ((o.room? s.setup).isSome = true →
      ∃ e, (after s (pre ++ [ev])).cache.store.find? key = some e ∧ e.value = v)

theorem Offered.snoc {s : Setting} {events : List Event} {key : Key} {v : Value} (h : Offered s events key v)
    (last : Event) : Offered s (events ++ [last]) key v := by
  obtain ⟨pre, ev, post, o, rfl, hoffered⟩ := h
  exact ⟨pre, ev, post ++ [last], o, by simp, hoffered⟩

/-- every value that a cache holds or hands out was offered to it -/
theorem after_holding (s : Setting) (events : List Event) :
    Cache.Holding (Offered s events) (after s events).cache := by
  induction events using List.reverseRecOn with
  | nil => exact Cache.new_lawful
  | append_singleton events last ih =>
    have hwider : Cache.Holding (Offered s (events ++ [last])) (after s events).cache :=
      ih.imp fun key outcome h v hv => (h v hv).snoc last
    rw [after_snoc]
    have hoffered : ∀ o, last.offer? s (after s events) = some o → o.ttl.isSome = true →
        Offered s (events ++ [last]) o.key o.value := by
      intro o ho hkept
      refine ⟨events, last, [], o, rfl, ho, rfl, rfl, fun hroom => ?_⟩
      rw [after_snoc]
      exact happen_kept ih.wf ho hkept hroom
    refine happen_cache (fun _ metrics h => h.counted metrics) (fun cache a ho h => ?_) hwider
    exact h.step s.setup a fun o hoffer hkept => hoffered o (ho o hoffer) hkept

/-! ## Operations -/

theorem after_attended (s : Setting) (events : List Event) : Attended s (after s events) := by
  induction events using List.reverseRecOn with
  | nil => exact new_attended s
  | append_singleton events last ih =>
    rw [after_snoc]
    cases last with
    | own act => exact ih.step act
    | other act =>
      refine ⟨ih.ids, ih.fresh, Cache.step_below s.setup ih.below act, fun v hv => ?_⟩
      exact (ih.asked v hv).imp fun caller l hstands => hstands.step act

/-- callers that all come away do so from the loads that they stand for -/
theorem settledAll?_callers {cache : Cache.St Key Value Rpc.Error Rpc.Query} {ids : List Nat} {loads : List Load}
    (hstand : List.Forall₂ (StandsFor cache) ids loads) {settled : List (Cache.Settled Value Rpc.Error)}
    (hs : Cache.settledAll? cache ids = some settled) :
    List.Forall₂ (fun l sv => ∃ g ∈ cache.callers, g.id ∈ ids ∧ StandsFor cache g.id l ∧
      cache.settled? g.id = some sv) loads settled := by
  have hcame := settledAll?_eq_some_iff.1 hs
  clear hs
  induction hstand generalizing settled with
  | nil =>
    cases hcame
    exact .nil
  | cons hfirst _ ih =>
    cases hcame with
    | cons hfirst' hothers =>
      obtain ⟨g, hg, rfl, -⟩ := Cache.settled?_eq_some hfirst'
      refine .cons ⟨g, hg, List.mem_cons_self, hfirst, hfirst'⟩ ((ih hothers).imp ?_)
      rintro l' sv ⟨g', hg', hid, hrest⟩
      exact ⟨g', hg', List.mem_cons_of_mem _ hid, hrest⟩

/-- an operation that returned in a state: each of its callers stood for one of its loads and came away, and its answer
is drawn from what they came away with -/
structure Return.Brought (o : Options) (before : St) (r : Return) : Prop where
  loads : ∃ v, before.visit? r.id = some v ∧ v.operation = r.operation ∧
    List.Forall₂ (fun l sv => ∃ g ∈ before.cache.callers, g.id ∈ v.callers ∧ StandsFor before.cache g.id l ∧
      before.cache.settled? g.id = some sv) (r.operation.loads o) r.settled
  answer : r.answer = r.operation.answer o r.settled

/-- every answer was given in an event, and drawn from what the loads had come to then -/
theorem returned_brought (s : Setting) (events : List Event) :
    ∀ r ∈ (after s events).returned, ∃ pre post, events = pre ++ .own (.resume r.id) :: post ∧
      r.Brought s.options (after s pre) := by
  induction events using List.reverseRecOn with
  | nil => exact fun r hr => absurd hr List.not_mem_nil
  | append_singleton events last ih =>
    have hold : ∀ r ∈ (after s events).returned, ∃ pre post,
        events ++ [last] = pre ++ .own (.resume r.id) :: post ∧ r.Brought s.options (after s pre) := by
      intro r hr
      obtain ⟨pre, post, rfl, hbrought⟩ := ih r hr
      exact ⟨pre, post ++ [last], by simp, hbrought⟩
    intro r hr
    rw [after_snoc] at hr
    cases last with
    | other act => exact hold r hr
    | own act =>
      cases step_visits s (after s events) act with
      | quiet _ _ _ _ hsame => exact hold r (hsame ▸ hr)
      | started op _ he => exact hold r (by rw [happen, he] at hr; exact hr)
      | asked _ _ _ _ _ _ _ _ hsame => exact hold r (hsame ▸ hr)
      | left v _ _ he => exact hold r (by rw [happen, he] at hr; exact hr)
      | returned v settled hact hv hnext hsettled he =>
        rw [happen, he, List.mem_append, List.mem_singleton] at hr
        rcases hr with hr | rfl
        · exact hold r hr
        · subst hact
          refine ⟨events, [], rfl, ⟨v, hv, rfl, ?_⟩, rfl⟩
          exact settledAll?_callers (((after_attended s events).asked v (visit?_some hv).1).all hnext) hsettled

/-- an operation returns when it is resumed, if it has asked for all and each of its callers has come away -/
theorem resume_returns (s : Setting) {st : St} {v : Visit} (hv : st.visit? v.id = some v)
    (hnext : v.next? s.options = none) (hcame : ∀ caller ∈ v.callers, (st.cache.settled? caller).isSome = true) :
    ∃ settled, List.Forall₂ (fun caller sv => st.cache.settled? caller = some sv) v.callers settled ∧
      (step s st (.resume v.id)).returned =
        st.returned ++ [⟨v.id, v.operation, settled, v.operation.answer s.options settled⟩] := by
  have hsettled : ∀ ids : List Nat, (∀ caller ∈ ids, (st.cache.settled? caller).isSome = true) →
      ∃ settled, List.Forall₂ (fun caller sv => st.cache.settled? caller = some sv) ids settled := by
    intro ids
    induction ids with
    | nil => exact fun _ => ⟨[], .nil⟩
    | cons id ids ih =>
      intro h
      obtain ⟨sv, hsv⟩ := Option.isSome_iff_exists.1 (h id List.mem_cons_self)
      obtain ⟨settled, hothers⟩ := ih fun caller hc => h caller (List.mem_cons_of_mem _ hc)
      exact ⟨sv :: settled, .cons hsv hothers⟩
  obtain ⟨settled, hall⟩ := hsettled v.callers hcame
  refine ⟨settled, hall, ?_⟩
  simp only [step, St.resume, hv, hnext, settledAll?_eq_some_iff.2 hall]
  rfl

/-! ## Fills that were started -/

/-- the fill that a load was told to lead is under the key of the load -/
theorem led_fill (s : Setting) (events : List Event) {pre post : List Event} {ev : Event}
    (he : events = pre ++ ev :: post) {a : Asking} (ha : ev.asking? s (after s pre) = some a) {fill : Nat}
    (hlead : a.admission = .lead fill) :
    ∀ f ∈ (after s events).cache.fills, f.id = fill → f.key = a.load.key := by
  have hled : ∃ f ∈ (after s events).cache.fills, f.id = fill ∧ f.key = a.load.key := by
    induction events using List.reverseRecOn generalizing post with
    | nil => exact absurd he (by simp)
    | append_singleton events last ih =>
      rw [after_snoc]
      rcases Cache.split_snoc he with ⟨rfl, rfl, rfl⟩ | ⟨post', rfl, rfl⟩
      · cases last with
        | other act => exact absurd ha (by simp [Event.asking?])
        | own act =>
          obtain ⟨v, -, -, -, hadmission⟩ := Act.asking?_eq_some ha
          rw [hlead] at hadmission
          rw [happen, step_asked ha]
          simp only [Cache.St.fetch, ← hadmission]
          exact ⟨_, List.mem_append_right _ (List.mem_singleton_self _), rfl, rfl⟩
      · obtain ⟨f, hf, hid, hkey⟩ := ih rfl
        obtain ⟨g, hg, hid', hkey'⟩ := happen_keeps s (after s (pre ++ ev :: post')) last hf
        exact ⟨g, hg, hid'.trans hid, hkey'.trans hkey⟩
  obtain ⟨f, hf, hid, hkey⟩ := hled
  intro g hg hgid
  rw [(after_holding s events).single.eq_of_id hg hf (hgid.trans hid.symm)]
  exact hkey

end ChainBridge.Repository
