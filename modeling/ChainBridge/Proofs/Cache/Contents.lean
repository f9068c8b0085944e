/-
What a cache may hold under a key, and what its callers may come away with.

`Fits` says which job belongs to a key, and `R` what may come of a fill of a key: a value, an error, or nothing if it
crashed or its task was dropped. A cache is `Lawful` if every fill has a job that fits its key and came to what may come
of it, every stored value may come of a fill of its key, and every caller was served such a value or waits for a fill of
its own key. An act obeys (`Act.Obeys`) if it brings in nothing else. Such acts keep a cache lawful (`Lawful.step`), in
whatever order entries expire, are evicted, replaced or removed in between, and whoever comes away from a lawful cache
does so with what may come of a fill of the key that was asked for (`Lawful.settled`). `Holding` is the special case in
which anybody may use the cache: then at least every value was offered to it under its key.
-/
import Mathlib
import ChainBridge.Cache.Task
import ChainBridge.Proofs.Cache.Callers
import ChainBridge.Proofs.Cache.Offers
import ChainBridge.Proofs.Cache.SingleFlight

namespace ChainBridge.Cache

variable {K V E J : Type}

/-! ## Fills after an act -/

/-- the fills after an act are those before it, of which one may have been turned, and maybe a new one -/
theorem mem_fills_step [DecidableEq K] {st st' : St K V E J} {act : Act K V E J} (hs : Single st)
    (hfills : FillStep st st' act) {g : Fill K V E J} (hg : g ∈ st'.fills) :
    g ∈ st.fills ∨ (∃ ttl, act = .fetch g.key ttl g.job ∧ g.stage = .queued) ∨
    ∃ f stage, st.fill? f.id = some f ∧ Turns act f.id f.stage stage ∧ g = { f with stage := stage } := by
  have hmoved : ∀ (f : Fill K V E J) (stage : Stage V E), st.fill? f.id = some f →
      g ∈ (st.move f.id stage).fills → g ∈ st.fills ∨ g = { f with stage := stage } := by
    intro f stage hf hmove
    obtain ⟨f', hf', rfl⟩ := List.mem_map.1 hmove
    split
    · rename_i hid
      rw [hs.eq_of_id hf' (fill?_some hf).1 (by simpa using hid)]
      exact .inr rfl
    · exact .inl hf'
  cases hfills with
  | quiet hsame _ => exact .inl (hsame ▸ hg)
  | started key ttl job hact _ hnew _ =>
    rw [hnew, List.mem_append, List.mem_singleton] at hg
    rcases hg with hg | rfl
    · exact .inl hg
    · exact .inr (.inl ⟨ttl, hact, rfl⟩)
  | moved f stage hf hturn _ hmove _ =>
    rcases hmoved f stage hf (hmove ▸ hg) with hg | rfl
    · exact .inl hg
    · exact .inr (.inr ⟨f, stage, hf, hturn, rfl⟩)
  | ended f outcome hf hrun hturn hmove _ =>
    rcases hmoved f (.ended outcome) hf (hmove ▸ hg) with hg | rfl
    · exact .inl hg
    · exact .inr (.inr ⟨f, .ended outcome, hf, by rw [hrun]; exact hturn, rfl⟩)

/-! ## Lawful caches -/

/-- whether an act brings in nothing that may not come of the key -/
def Act.Obeys (Fits : K → J → Prop) (R : K → Option (Except E V) → Prop) (st : St K V E J) : Act K V E J → Prop
  | .set key v _ => R key (some (.ok v))
  | .fetch key _ job => Fits key job
  | .finish fill outcome => ∀ f ∈ st.fill? fill, Fits f.key f.job → R f.key (some outcome)
  | .crash fill | .discard fill => ∀ f ∈ st.fill? fill, R f.key none
  | _ => True

/-- everything that is stored, that fills have come to and that callers were told may come of its key -/
structure Lawful [DecidableEq K] [Footprint K] [Footprint V] (Fits : K → J → Prop)
    (R : K → Option (Except E V) → Prop) (st : St K V E J) : Prop where
  wf : st.store.Wf
  single : Single st
  below : ∀ g ∈ st.callers, g.id < st.nextCaller
  stored : ∀ e ∈ st.store.entries, R e.key (some (.ok e.value))
  jobs : ∀ f ∈ st.fills, Fits f.key f.job
  outcomes : ∀ f ∈ st.fills, ∀ outcome, f.stage.outcome? = some outcome → R f.key outcome
  dropped : ∀ f ∈ st.fills, f.stage = .dropped → R f.key none
  served : ∀ g ∈ st.callers, ∀ v, g.ticket = .served v → R g.key (some (.ok v))
  awaiting : ∀ g ∈ st.callers, ∀ fill, g.ticket = .awaiting fill → ∃ f ∈ st.fills, f.id = fill ∧ f.key = g.key

variable [DecidableEq K] [Footprint K] [Footprint V] {Fits : K → J → Prop} {R : K → Option (Except E V) → Prop}

theorem new_lawful : Lawful Fits R (.new : St K V E J) := by
  refine ⟨Store.wf_empty, new_single, ?_, ?_, ?_, ?_, ?_, ?_, ?_⟩ <;> exact fun _ h => absurd h List.not_mem_nil

/-- callers have numbers below the next -/
theorem step_below (c : Setup) {st : St K V E J} (h : ∀ g ∈ st.callers, g.id < st.nextCaller) (act : Act K V E J) :
    ∀ g ∈ (step c st act).callers, g.id < (step c st act).nextCaller := by
  intro g hg
  cases step_callers c st act with
  | admitted key ttl job ticket _ _ hjoined hnext =>
    rw [hjoined, List.mem_append, List.mem_singleton] at hg
    rw [hnext]
    rcases hg with hg | rfl
    · exact Nat.lt_succ_of_lt (h g hg)
    · exact Nat.lt_succ_self _
  | other _ hsub hnext =>
    rw [hnext]
    exact h g (hsub.subset hg)

namespace Lawful

variable {st : St K V E J} {act : Act K V E J}

/-- the counters of a cache have no part in it -/
theorem counted (h : Lawful Fits R st) (metrics : Metrics.Registry) : Lawful Fits R { st with metrics := metrics } :=
  ⟨h.wf, h.single.quiet rfl rfl, h.below, h.stored, h.jobs, h.outcomes, h.dropped, h.served, h.awaiting⟩

/-- what an act writes may come of its key -/
theorem of_writes {c : Setup} (h : Lawful Fits R st) (ha : act.Obeys Fits R st) {key : K} {v : V} {ttl : Nat}
    (hw : Writes c st act key v ttl) : R key (some (.ok v)) := by
  cases hw with
  | set => exact ha
  | fill f _ hf _ _ => exact ha f hf (h.jobs f (fill?_some hf).1)

/-- what an act turns a fill to may come of its key -/
theorem of_turns {f : Fill K V E J} {stage : Stage V E} (h : Lawful Fits R st) (ha : act.Obeys Fits R st)
    (hf : st.fill? f.id = some f) (hturn : Turns act f.id f.stage stage) :
    (∀ outcome, stage.outcome? = some outcome → R f.key outcome) ∧ (stage = .dropped → R f.key none) := by
  obtain ⟨hmem, -⟩ := fill?_some hf
  have hold := h.outcomes f hmem
  obtain ⟨id, key, ttl, job, before⟩ := f
  cases hturn with
  | begin => exact ⟨fun outcome ho => absurd ho (by simp [Stage.outcome?]), by simp⟩
  | finish _ outcome =>
    refine ⟨fun outcome' ho => ?_, by simp⟩
    obtain rfl := Option.some.inj ho
    exact ha _ hf (h.jobs _ hmem)
  | crash =>
    refine ⟨fun outcome ho => ?_, by simp⟩
    obtain rfl := Option.some.inj ho
    exact ha _ hf
  | tell => exact ⟨hold, by simp⟩
  | drop => exact ⟨fun outcome ho => absurd ho (by simp [Stage.outcome?]), fun _ => ha _ hf⟩
  | cut =>
    refine ⟨fun outcome ho => ?_, by simp⟩
    obtain rfl := Option.some.inj ho
    exact ha _ hf

/-- a caller that is admitted is served what may come of its key, or waits for a fill of it -/
theorem of_admits (h : Lawful Fits R st) {key : K} {ttl : Option Nat} {job : J} {ticket : Ticket V}
    {fills : List (Fill K V E J)} {marks : List (Marker K) × Nat} (hadmits : Admits st key ttl job ticket fills marks) :
    (∀ v, ticket = .served v → R key (some (.ok v))) ∧
    ∀ fill, ticket = .awaiting fill → ∃ f ∈ fills, f.id = fill ∧ f.key = key := by
  cases hadmits with
  | hit v hv =>
    refine ⟨fun v' hticket => ?_, fun fill hticket => absurd hticket (by simp)⟩
    obtain rfl := Ticket.served.inj hticket
    obtain ⟨e, hf, -, rfl⟩ := Store.lookup_hit_iff.1 hv
    obtain ⟨he, rfl⟩ := Store.find?_some hf
    exact h.stored e he
  | join fill _ hfilling =>
    refine ⟨fun v hticket => absurd hticket (by simp), fun fill' hticket => ?_⟩
    obtain rfl := Ticket.awaiting.inj hticket
    obtain ⟨f, hf, -, hkey, hid⟩ := St.mem_holders.1 (h.single.filling?_eq_some_iff.1 hfilling)
    exact ⟨f, hf, hid, hkey⟩
  | lead _ _ =>
    refine ⟨fun v hticket => absurd hticket (by simp), fun fill' hticket => ?_⟩
    obtain rfl := Ticket.awaiting.inj hticket
    exact ⟨_, List.mem_append_right _ (List.mem_singleton_self _), rfl, rfl⟩

/-! ## One act -/

theorem fills_step (c : Setup) (h : Lawful Fits R st) (ha : act.Obeys Fits R st) :
    ∀ g ∈ (step c st act).fills, Fits g.key g.job ∧
      (∀ outcome, g.stage.outcome? = some outcome → R g.key outcome) ∧ (g.stage = .dropped → R g.key none) := by
  intro g hg
  rcases mem_fills_step h.single (step_fills c st act) hg with hg | ⟨ttl, rfl, hqueued⟩ | ⟨f, stage, hf, hturn, rfl⟩
  · exact ⟨h.jobs g hg, h.outcomes g hg, h.dropped g hg⟩
  · refine ⟨ha, fun outcome ho => ?_, by simp [hqueued]⟩
    rw [hqueued] at ho
    exact absurd ho (by simp [Stage.outcome?])
  · have hturned := h.of_turns ha hf hturn
    exact ⟨h.jobs f (fill?_some hf).1, hturned⟩

theorem callers_step (c : Setup) (h : Lawful Fits R st) :
    ∀ g ∈ (step c st act).callers, (∀ v, g.ticket = .served v → R g.key (some (.ok v))) ∧
      ∀ fill, g.ticket = .awaiting fill → ∃ f ∈ (step c st act).fills, f.id = fill ∧ f.key = g.key := by
  have hold : ∀ g ∈ st.callers, ∀ fill, g.ticket = .awaiting fill →
      ∃ f ∈ (step c st act).fills, f.id = fill ∧ f.key = g.key := by
    intro g hg fill hticket
    obtain ⟨f, hf, rfl, hkey⟩ := h.awaiting g hg fill hticket
    obtain ⟨f', hf', hid, hkey'⟩ := step_keeps c st act hf
    exact ⟨f', hf', hid, hkey'.trans hkey⟩
  intro g hg
  cases step_callers c st act with
  | admitted key ttl job ticket hact hadmits hjoined _ =>
    rw [hjoined, List.mem_append, List.mem_singleton] at hg
    rcases hg with hg | rfl
    · exact ⟨h.served g hg, hold g hg⟩
    · subst hact
      exact h.of_admits hadmits
  | other _ hsub _ => exact ⟨h.served g (hsub.subset hg), hold g (hsub.subset hg)⟩

theorem stored_step (c : Setup) (h : Lawful Fits R st) (ha : act.Obeys Fits R st) :
    ∀ e ∈ (step c st act).store.entries, R e.key (some (.ok e.value)) := by
  intro e he
  rw [(step_edits c h.wf act).entries, List.mem_append] at he
  rcases he with he | he
  · exact h.stored e (List.mem_filter.1 he).1
  · obtain ⟨key, v, ttl, hw, rfl⟩ := mem_adds_iff.1 he
    exact h.of_writes ha hw

/-- an act that obeys keeps a cache lawful -/
theorem step (c : Setup) (h : Lawful Fits R st) (act : Act K V E J) (ha : act.Obeys Fits R st) :
    Lawful Fits R (step c st act) where
  wf := step_lasting (wf_lasting c.policy.maxSize) st act h.wf
  single := step_single c act h.single
  below := step_below c h.below act
  stored := h.stored_step c ha
  jobs g hg := (h.fills_step c ha g hg).1
  outcomes g hg := (h.fills_step c ha g hg).2.1
  dropped g hg := (h.fills_step c ha g hg).2.2
  served g hg := (h.callers_step c g hg).1
  awaiting g hg := (h.callers_step c g hg).2

/-- whoever comes away does so with what may come of a fill of the key that it asked for -/
theorem settled (h : Lawful Fits R st) {caller : Nat} {s : Settled V E} (hs : st.settled? caller = some s) :
    ∃ g ∈ st.callers, g.id = caller ∧ ∃ outcome, R g.key outcome ∧ s = .ofOutcome outcome := by
  obtain ⟨g, hg, hid, ⟨v, hticket, rfl⟩ | ⟨fill, f, hticket, hf, hstage⟩⟩ := settled?_eq_some hs
  · exact ⟨g, hg, hid, some (.ok v), h.served g hg v hticket, rfl⟩
  · obtain ⟨hmem, hfid⟩ := fill?_some hf
    obtain ⟨f', hmem', hfid', hkey⟩ := h.awaiting g hg fill hticket
    obtain rfl : f = f' := h.single.eq_of_id hmem hmem' (hfid.trans hfid'.symm)
    refine ⟨g, hg, hid, ?_⟩
    cases hst : f.stage with
    | told outcome =>
      rw [hst] at hstage
      exact ⟨outcome, hkey ▸ h.outcomes f hmem outcome (by rw [hst]; rfl), (Option.some.inj hstage).symm⟩
    | dropped =>
      rw [hst] at hstage
      exact ⟨none, hkey ▸ h.dropped f hmem hst, (Option.some.inj hstage).symm⟩
    | _ =>
      rw [hst] at hstage
      exact absurd hstage (by simp [Stage.settled?])

/-- what may come of a key may come of it by a wider measure -/
theorem imp (h : Lawful Fits R st) {R' : K → Option (Except E V) → Prop}
    (hR : ∀ key outcome, R key outcome → R' key outcome) : Lawful Fits R' st where
  wf := h.wf
  single := h.single
  below := h.below
  stored e he := hR _ _ (h.stored e he)
  jobs := h.jobs
  outcomes f hf outcome ho := hR _ _ (h.outcomes f hf outcome ho)
  dropped f hf hd := hR _ _ (h.dropped f hf hd)
  served g hg v hv := hR _ _ (h.served g hg v hv)
  awaiting := h.awaiting

end Lawful

/-! ## Where values come from -/

/-- a cache in which every value is known of its key, whoever uses it -/
abbrev Holding (Known : K → V → Prop) (st : St K V E J) : Prop :=
  Lawful (fun _ _ => True) (fun key outcome => ∀ v, outcome = some (.ok v) → Known key v) st

/-- an act brings in no other value than it offers to be kept -/
theorem Holding.step {Known : K → V → Prop} {st : St K V E J} (c : Setup) (h : Holding Known st) (act : Act K V E J)
    (ho : ∀ o, act.offer? c st = some o → o.ttl.isSome = true → Known o.key o.value) :
    Holding Known (step c st act) := by
  have hvoid : ∀ key v, (none : Option (Except E V)) = some (.ok v) → Known key v := fun _ _ hv => absurd hv (by simp)
  have hobeys : act.Obeys (fun _ _ => True) (fun key outcome => ∀ v, outcome = some (.ok v) → Known key v) st →
      Holding Known (Cache.step c st act) := Lawful.step c h act
  cases act with
  | set key value ttl =>
    refine hobeys fun v hv => ?_
    rw [← Except.ok.inj (Option.some.inj hv)]
    exact ho _ rfl rfl
  | finish fill outcome =>
    by_cases hrun : ∃ f, st.fill? fill = some f ∧ f.stage = .running
    · obtain ⟨⟨id, key, ttl, job, stage⟩, hf, rfl⟩ := hrun
      refine hobeys fun f hf' _ v hv => ?_
      obtain rfl := Option.some.inj (hf.symm.trans hf')
      obtain rfl := Option.some.inj hv
      exact ho ⟨st.store.release key fill, key, v, some (ttl.getD c.policy.defaultTtl)⟩ (by simp [Act.offer?, hf]) rfl
    -- a fill that is not running does not end
    · have hsame : Cache.step c st (.finish fill outcome) = st := by
        simp only [Cache.step, St.finish]
        split
        · rename_i hf
          exact absurd ⟨_, hf, rfl⟩ hrun
        · rfl
      rw [hsame]
      exact h
  | crash fill => exact hobeys fun f _ => hvoid f.key
  | discard fill => exact hobeys fun f _ => hvoid f.key
  | _ => exact hobeys trivial

end ChainBridge.Cache
