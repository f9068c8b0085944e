/-
The callers of a fill come away with what it came to, all of them with the same.

A caller knows from its admission what it has found or which fill it waits for, and a fill comes to something once.
When it has, it no longer marks its key, and a value that it came to has been offered to the store (`Offered`). Its
callers are told after that, so none of them can come back and meet the fill again.
- `outcomes_agree`: in a run in which no task is dropped, a caller returns with the live value that it found or with
  what the fill that marked its key came to, whatever else is done to the cache; two callers of one fill return with the
  same; and nobody who asks after a fill has ended joins it.
-/
import Mathlib
import ChainBridge.Proofs.Cache.Runs
import ChainBridge.Proofs.Cache.Fates
import ChainBridge.Proofs.Cache.Callers
import ChainBridge.Proofs.Cache.SingleFlight

namespace ChainBridge.Cache

variable {K V E J : Type}

/-- the callers of a fill come away when they are told what it came to, or when its task was dropped in the queue -/
theorem Stage.settled?_eq_some {stage : Stage V E} {answer : Settled V E} (h : stage.settled? = some answer) :
    (∃ outcome, stage = .told outcome ∧ answer = .ofOutcome outcome) ∨ (stage = .dropped ∧ answer = .abandoned) := by
  cases stage with
  | told outcome => exact .inl ⟨outcome, rfl, (Option.some.inj h).symm⟩
  | dropped => exact .inr ⟨rfl, (Option.some.inj h).symm⟩
  | _ => exact absurd h (by simp [Stage.settled?])

theorem Settled.result_ofOutcome (absorb : Error → E) (debug : K → String) (key : K)
    (outcome : Option (Except E V)) :
    (Settled.ofOutcome outcome).result absorb debug key =
      outcome.getD (.error (absorb (.fetchAbandoned (debug key)))) := by
  cases outcome with
  | none => rfl
  | some outcome => cases outcome <;> rfl

variable [DecidableEq K]

/-- a fill that has come to something marks no key -/
theorem filling?_ne_of_outcome? {st : St K V E J} (hs : Single st) {fill : Nat}
    {outcome : Option (Except E V)} (ho : st.outcome? fill = some outcome) (key : K) :
    st.store.filling? key ≠ some fill := by
  intro hfilling
  obtain ⟨f, hf, hh, -, rfl⟩ := St.mem_holders.1 (hs.filling?_eq_some_iff.1 hfilling)
  rw [St.outcome?_of_fill? (fill?_of_mem hs.ids hf), Stage.outcome?_of_holds hh] at ho
  exact absurd ho (by simp)

variable [Footprint K] [Footprint V]

/-- whether the fill that came to a value let go of its key and then offered the value to the store -/
def Offered (c : Setup) (acts : List (Act K V E J)) (fill : Nat) (value : V) : Prop :=
  Took c acts fun st act => act = .finish fill (.ok value) ∧ ∃ f, st.fill? fill = some f ∧
    (st.store.release f.key fill).filling? f.key = none ∧
    (step c st act).store = ((st.store.release f.key fill).insert c.policy.maxSize st.now f.key value
      (f.ttl.getD c.policy.defaultTtl)).1

/-- whether a caller returned with an answer -/
def Returned (c : Setup) (acts : List (Act K V E J)) (caller : Nat) (answer : Settled V E) : Prop :=
  Took c acts fun st act => act = .resume caller ∧ (st.resume caller).2 = some answer

/-! ## Answers -/

section

variable {c : Setup} {acts : List (Act K V E J)} {caller fill : Nat} {key : K} {answer : Settled V E}

/-- a value that a fill came to was offered to the store when the key was let go -/
theorem CameTo.offered {v : V} (h : CameTo c acts fill (some (.ok v))) : Offered c acts fill v := by
  obtain ⟨pre, act, post, hacts, rfl, f, hf, hrun⟩ := h
  have hs : Single (run c .new pre) := run_single c pre
  obtain ⟨hmem, rfl⟩ := fill?_some hf
  have hown := hs.filling?_of_holds hmem (by rw [hrun]; rfl)
  refine ⟨pre, _, post, hacts, rfl, f, hf, Store.filling?_release hown, ?_⟩
  obtain ⟨i, key, ttl, job, stage⟩ := f
  subst hrun
  simp only [endAct, step, finish_running c hf]
  exact set_store c _ key v ttl

/-- a caller that waits for a fill asked for the key of the fill -/
theorem Admitted.fill_key (h : Admitted c acts caller key (.awaiting fill)) :
    ∃ f ∈ (run c .new acts).fills, f.id = fill ∧ f.key = key := by
  induction acts using List.reverseRecOn with
  | nil => exact absurd h not_took_nil
  | append_singleton acts act ih =>
    rw [run_snoc]
    rcases took_snoc.1 h with h | ⟨ttl, job, rfl, -, hadmits⟩
    · obtain ⟨f, hf, rfl, rfl⟩ := ih h
      exact step_keeps c _ act hf
    · simp only [step]
      generalize ((run c .new acts).fetch c key ttl job).1.fills = fills at hadmits ⊢
      generalize ((run c .new acts).fetch c key ttl job).1.store.marks = marks at hadmits
      cases hadmits with
      | join _ _ hs =>
        obtain ⟨f, hf, -, hk, hid⟩ := St.mem_holders.1 ((run_single c acts).filling?_eq_some_iff.1 hs)
        exact ⟨f, hf, hid, hk⟩
      | lead _ _ => exact ⟨_, List.mem_append_right _ (List.mem_singleton_self _), rfl, rfl⟩

/-- a caller that returns was served when it was admitted, or the fill that it waits for has come to something -/
theorem resume_answer (h : ∀ fill, Act.discard fill ∉ acts)
    (hr : ((run c .new acts).resume caller).2 = some answer) :
    (∃ key v, Admitted c acts caller key (.served v) ∧ answer = .value v) ∨
    ∃ key fill outcome, Admitted c acts caller key (.awaiting fill) ∧ CameTo c acts fill outcome ∧
      answer = .ofOutcome outcome := by
  obtain ⟨⟨id, key, ticket⟩, hg, rfl, hsettled⟩ := settled?_eq_some (resume_settled hr)
  have hadmitted := run_admitted c acts _ hg
  rcases hsettled with ⟨v, rfl, rfl⟩ | ⟨fill, f, rfl, hf, hstage⟩
  · exact .inl ⟨key, v, hadmitted, rfl⟩
  · rcases Stage.settled?_eq_some hstage with ⟨outcome, htold, rfl⟩ | ⟨hdropped, -⟩
    · have ho : (run c .new acts).outcome? fill = some outcome := by
        rw [St.outcome?_of_fill? hf, htold]
        rfl
      exact .inr ⟨key, fill, outcome, hadmitted, (cameTo_iff h).2 ho, rfl⟩
    · exact absurd (dropped_iff.2 ⟨f, hf, rfl, hdropped⟩) (not_dropped h)

/-- a caller that was served, or whose fill has told its callers, can return -/
theorem resume_of_mem {g : Caller K V} (hg : g ∈ (run c .new acts).callers) :
    (∀ v, g.ticket = .served v → ((run c (.new : St K V E J) acts).resume g.id).2 = some (.value v)) ∧
    ∀ fill f outcome, g.ticket = .awaiting fill → (run c (.new : St K V E J) acts).fill? fill = some f →
      f.stage = .told outcome → ((run c (.new : St K V E J) acts).resume g.id).2 = some (.ofOutcome outcome) := by
  have hsettled := settled?_of_mem (run_callers_nodup c acts) hg
  constructor
  · intro v hv
    rw [hv] at hsettled
    exact resume_of_settled hsettled
  · intro fill f outcome hfill hf htold
    rw [hfill] at hsettled
    simp only [hf, Option.bind_some, htold] at hsettled
    exact resume_of_settled hsettled

/-- a caller of a fill returned with what the fill came to -/
theorem Returned.cameTo (h : ∀ fill, Act.discard fill ∉ acts) (hr : Returned c acts caller answer)
    (ha : Admitted c acts caller key (.awaiting fill)) :
    ∃ outcome, CameTo c acts fill outcome ∧ answer = .ofOutcome outcome := by
  obtain ⟨pre, act, post, rfl, -, hanswer⟩ := hr
  have hpre : ∀ fill, Act.discard fill ∉ pre := fun fill hm => h fill (List.mem_append_left _ hm)
  rcases resume_answer hpre hanswer with ⟨key', v, hadmitted, -⟩ | ⟨key', fill', outcome, hadmitted, hcame, he⟩
  · exact absurd (ha.unique (hadmitted.append _)).2 (by simp)
  · obtain rfl : fill = fill' := Ticket.awaiting.inj (ha.unique (hadmitted.append _)).2
    exact ⟨outcome, Took.append hcame _, he⟩

theorem CameTo.unique {outcome outcome' : Option (Except E V)} (h : ∀ fill, Act.discard fill ∉ acts)
    (hc : CameTo c acts fill outcome) (hc' : CameTo c acts fill outcome') : outcome = outcome' :=
  Option.some.inj (((cameTo_iff h).1 hc).symm.trans ((cameTo_iff h).1 hc'))

end

/-- **Outcomes agree.** After any sequence of acts in which no task is dropped, a caller that returns was served the
live value that it found when it was admitted, or its result is what the fill came to that marked its key then, or an
error of the cache for its key if that fill crashed. A caller can return once it was served or its fill has told its
callers. Two callers of one fill that return asked for one key and return with the same. A fill comes to one thing, and
once it has, no key is marked with it and nobody who asks joins it; a value that it came to was offered to the store
right after its key was let go. -/
theorem outcomes_agree (c : Setup) (acts : List (Act K V E J)) (h : ∀ fill, Act.discard fill ∉ acts) :
    let st : St K V E J := run c .new acts
    (∀ caller answer, (st.resume caller).2 = some answer → ∃ key ticket, Admitted c acts caller key ticket ∧
      match ticket with
      | .served v => answer = .value v
      | .awaiting fill => ∃ outcome, CameTo c acts fill outcome ∧ ∀ (absorb : Error → E) (debug : K → String),
          answer.result absorb debug key = outcome.getD (.error (absorb (.fetchAbandoned (debug key))))) ∧
    (∀ g ∈ st.callers, (∀ v, g.ticket = .served v → (st.resume g.id).2 = some (.value v)) ∧
      ∀ fill f outcome, g.ticket = .awaiting fill → st.fill? fill = some f → f.stage = .told outcome →
        (st.resume g.id).2 = some (.ofOutcome outcome)) ∧
    (∀ caller caller' key key' fill answer answer', Admitted c acts caller key (.awaiting fill) →
      Admitted c acts caller' key' (.awaiting fill) → Returned c acts caller answer →
      Returned c acts caller' answer' → key = key' ∧ answer = answer') ∧
    ∀ fill outcome, CameTo c acts fill outcome →
      (∀ outcome', CameTo c acts fill outcome' → outcome = outcome') ∧
      (∀ key, st.store.filling? key ≠ some fill ∧ (st.store.ask key st.now).2.1 ≠ .join fill) ∧
      ∀ v, outcome = some (.ok v) → Offered c acts fill v := by
  intro st
  have hs : Single st := run_single c acts
  refine ⟨?_, fun g hg => resume_of_mem hg, ?_, ?_⟩
  · intro caller answer hr
    rcases resume_answer h hr with ⟨key, v, hadmitted, rfl⟩ | ⟨key, fill, outcome, hadmitted, hcame, rfl⟩
    · exact ⟨key, .served v, hadmitted, rfl⟩
    · exact ⟨key, .awaiting fill, hadmitted, outcome, hcame, fun absorb debug =>
        Settled.result_ofOutcome absorb debug key outcome⟩
  · intro caller caller' key key' fill answer answer' ha ha' hr hr'
    obtain ⟨f, hf, hid, rfl⟩ := ha.fill_key
    obtain ⟨f', hf', hid', rfl⟩ := ha'.fill_key
    -- the two callers wait for one fill, and it came to one thing
    obtain rfl : f = f' := hs.eq_of_id hf hf' (hid.trans hid'.symm)
    obtain ⟨outcome, hcame, rfl⟩ := hr.cameTo h ha
    obtain ⟨outcome', hcame', rfl⟩ := hr'.cameTo h ha'
    obtain rfl : outcome = outcome' := hcame.unique h hcame'
    exact ⟨rfl, rfl⟩
  · intro fill outcome hcame
    refine ⟨fun outcome' hcame' => hcame.unique h hcame', fun key => ?_, ?_⟩
    · have hne := filling?_ne_of_outcome? hs ((cameTo_iff h).1 hcame) key
      exact ⟨hne, Store.ask_ne_join hne st.now⟩
    · rintro v rfl
      exact hcame.offered

/-- two callers of a fill, the first of which returns after the key has been fetched again -/
def sharedAnswer : List (Act Nat Nat String Unit) :=
  [.fetch 7 none (), .fetch 7 none (), .begin 1, .finish 1 (.ok 3), .tell 1, .invalidate 7, .fetch 7 none (), .resume 1,
    .resume 2]

/-- the second caller returns with the value that the first was given, though its key is being filled anew -/
theorem sharedAnswer_agrees :
    (∀ fill, Act.discard fill ∉ sharedAnswer) ∧ Offered .plain sharedAnswer 1 3 ∧
    Returned .plain sharedAnswer 1 (.value 3) ∧
    ∀ answer, Returned .plain sharedAnswer 2 answer → .value 3 = answer := by
  have hacts : ∀ fill, Act.discard fill ∉ sharedAnswer := by simp [sharedAnswer]
  have hfirst : Admitted .plain sharedAnswer 1 7 (.awaiting 1) :=
    ⟨[], _, sharedAnswer.drop 1, rfl, none, (), rfl, rfl, .lead (Store.Lookup.ne_hit_of_miss rfl) rfl⟩
  have hsecond : Admitted .plain sharedAnswer 2 7 (.awaiting 1) :=
    ⟨sharedAnswer.take 1, _, sharedAnswer.drop 2, rfl, none, (), rfl, rfl, .join 1 (Store.Lookup.ne_hit_of_miss rfl) rfl⟩
  have hcame : CameTo .plain sharedAnswer 1 (some (.ok 3)) :=
    ⟨sharedAnswer.take 3, _, sharedAnswer.drop 4, rfl, rfl, ⟨1, 7, none, (), .running⟩, rfl, rfl⟩
  have hreturned : Returned .plain sharedAnswer 1 (.value 3) :=
    ⟨sharedAnswer.take 7, _, sharedAnswer.drop 8, rfl, rfl, rfl⟩
  obtain ⟨-, -, hagree, hfill⟩ := outcomes_agree .plain sharedAnswer hacts
  obtain ⟨-, -, hoffered⟩ := hfill 1 _ hcame
  refine ⟨hacts, hoffered 3 rfl, hreturned, fun answer hr => ?_⟩
  exact (hagree 1 2 7 7 1 (.value 3) answer hfirst hsecond hreturned hr).2

end ChainBridge.Cache
