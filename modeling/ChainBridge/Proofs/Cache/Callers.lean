/-
The callers of a cache, and what each was told when it was admitted.

A caller is admitted by a `fetch` and is told once what it has found or which fill it waits for (`Admitted`). Callers
are numbered in the order in which they are admitted, so what one was told is settled for good (`Admitted.unique`);
whoever is still there was told what its ticket says (`run_admitted`).
-/
import Mathlib
import ChainBridge.Proofs.Cache.Runs
import ChainBridge.Proofs.Cache.Fills

namespace ChainBridge.Cache

variable {K V E J : Type}

/-- whoever comes away was served, or waits for a fill whose callers may return -/
theorem settled?_eq_some {st : St K V E J} {caller : Nat} {answer : Settled V E}
    (h : st.settled? caller = some answer) :
    ∃ g ∈ st.callers, g.id = caller ∧ ((∃ v, g.ticket = .served v ∧ answer = .value v) ∨
      ∃ fill f, g.ticket = .awaiting fill ∧ st.fill? fill = some f ∧ f.stage.settled? = some answer) := by
  have hfound : ∀ g, (st.callers.find? fun g => g.id == caller) = some g → g ∈ st.callers ∧ g.id = caller :=
    fun g hg => ⟨List.mem_of_find?_eq_some hg, by simpa using List.find?_some hg⟩
  simp only [St.settled?] at h
  split at h
  · exact absurd h (by simp)
  · rename_i id key v hg
    obtain ⟨hmem, hid⟩ := hfound _ hg
    exact ⟨_, hmem, hid, .inl ⟨v, rfl, (Option.some.inj h).symm⟩⟩
  · rename_i id key fill hg
    obtain ⟨hmem, hid⟩ := hfound _ hg
    obtain ⟨f, hf, hstage⟩ := Option.bind_eq_some_iff.1 h
    exact ⟨_, hmem, hid, .inr ⟨fill, f, rfl, hf, hstage⟩⟩

/-- what a caller comes away with is known from its ticket, if callers have numbers of their own -/
theorem settled?_of_mem {st : St K V E J} (h : (st.callers.map (·.id)).Nodup) {g : Caller K V} (hg : g ∈ st.callers) :
    st.settled? g.id = match g.ticket with
      | .served v => some (.value v)
      | .awaiting fill => (st.fill? fill).bind fun f => f.stage.settled? := by
  have hfind : (st.callers.find? fun g' => g'.id == g.id) = some g := by
    cases hf : st.callers.find? fun g' => g'.id == g.id with
    | none => exact absurd (List.find?_eq_none.1 hf g hg) (by simp)
    | some g' =>
      have hid : g'.id = g.id := by simpa using List.find?_some hf
      rw [List.inj_on_of_nodup_map h (List.mem_of_find?_eq_some hf) hg hid]
  obtain ⟨id, key, ticket⟩ := g
  simp only [St.settled?, hfind]
  cases ticket <;> rfl

theorem resume_of_settled {st : St K V E J} {caller : Nat} {answer : Settled V E}
    (h : st.settled? caller = some answer) : (st.resume caller).2 = some answer := by
  simp only [St.resume, h]

theorem resume_settled {st : St K V E J} {caller : Nat} {answer : Settled V E}
    (h : (st.resume caller).2 = some answer) : st.settled? caller = some answer := by
  simp only [St.resume] at h
  split at h
  · exact absurd h (by simp)
  · rename_i he
    exact he.trans h

variable [DecidableEq K]

/-- how a caller is admitted is settled by what it finds -/
theorem Admits.unique {st : St K V E J} {key : K} {ttl : Option Nat} {job : J} {ticket ticket' : Ticket V}
    {fills fills' : List (Fill K V E J)} {marks marks' : List (Marker K) × Nat}
    (h : Admits st key ttl job ticket fills marks) (h' : Admits st key ttl job ticket' fills' marks') :
    ticket = ticket' ∧ fills = fills' ∧ marks = marks' := by
  cases h with
  | hit v hv =>
    cases h' with
    | hit v' hv' => exact ⟨congrArg _ (Store.Lookup.hit.inj (hv.symm.trans hv')), rfl, rfl⟩
    | join _ hno _ => exact absurd hv (hno v)
    | lead hno _ => exact absurd hv (hno v)
  | join fill hno hs =>
    cases h' with
    | hit v' hv' => exact absurd hv' (hno v')
    | join fill' _ hs' => exact ⟨congrArg _ (Option.some.inj (hs.symm.trans hs')), rfl, rfl⟩
    | lead _ hn => exact absurd (hs.symm.trans hn) (by simp)
  | lead hno hn =>
    cases h' with
    | hit v' hv' => exact absurd hv' (hno v')
    | join fill' _ hs' => exact absurd (hs'.symm.trans hn) (by simp)
    | lead _ _ => exact ⟨rfl, rfl, rfl⟩

theorem fetch_caller (c : Setup) (st : St K V E J) (key : K) (ttl : Option Nat) (job : J) :
    (st.fetch c key ttl job).2 = st.nextCaller ∧ (st.fetch c key ttl job).1.nextCaller = st.nextCaller + 1 := by
  simp only [St.fetch]
  split <;> exact ⟨rfl, rfl⟩

/-- all that an act can do to the callers -/
inductive CallerStep (c : Setup) (st st' : St K V E J) (act : Act K V E J) : Prop where
  | admitted (key : K) (ttl : Option Nat) (job : J) (ticket : Ticket V) : act = .fetch key ttl job →
      Admits st key ttl job ticket (st.fetch c key ttl job).1.fills (st.fetch c key ttl job).1.store.marks →
      st'.callers = st.callers ++ [⟨st.nextCaller, key, ticket⟩] → st'.nextCaller = st.nextCaller + 1 →
      CallerStep c st st' act
  | other : (∀ key ttl job, act ≠ .fetch key ttl job) → st'.callers.Sublist st.callers →
      st'.nextCaller = st.nextCaller → CallerStep c st st' act

theorem crash_callers (st : St K V E J) (fill : Nat) :
    (st.crash fill).callers = st.callers ∧ (st.crash fill).nextCaller = st.nextCaller := by
  simp only [St.crash]
  split <;> exact ⟨rfl, rfl⟩

variable [Footprint K] [Footprint V]

theorem set_callers (c : Setup) (st : St K V E J) (key : K) (value : V) (ttl : Option Nat) :
    (st.set c key value ttl).1.callers = st.callers ∧ (st.set c key value ttl).1.nextCaller = st.nextCaller := by
  simp only [St.set]
  split <;> exact ⟨rfl, rfl⟩

theorem finish_callers (c : Setup) (st : St K V E J) (fill : Nat) (outcome : Except E V) :
    (st.finish c fill outcome).callers = st.callers ∧ (st.finish c fill outcome).nextCaller = st.nextCaller := by
  simp only [St.finish]
  split
  · rename_i key ttl job _
    cases outcome with
    | ok v => exact set_callers c { st with store := st.store.release key fill } key v ttl
    | error e => exact ⟨rfl, rfl⟩
  · exact ⟨rfl, rfl⟩

theorem step_callers (c : Setup) (st : St K V E J) (act : Act K V E J) : CallerStep c st (step c st act) act := by
  have same : ∀ st' : St K V E J, (∀ key ttl job, act ≠ .fetch key ttl job) →
      st'.callers = st.callers ∧ st'.nextCaller = st.nextCaller → CallerStep c st st' act :=
    fun st' hact h => .other hact (by rw [h.1]) h.2
  cases act with
  | fetch key ttl job =>
    obtain ⟨ticket, hadmits, hcallers⟩ := fetch_admits c st key ttl job
    exact .admitted key ttl job ticket rfl hadmits hcallers (fetch_caller c st key ttl job).2
  | leave caller => exact .other (by simp) List.filter_sublist rfl
  | resume caller =>
    simp only [step, St.resume]
    split
    · exact same _ (by simp) ⟨rfl, rfl⟩
    · exact .other (by simp) List.filter_sublist rfl
  | get key =>
    refine same _ (by simp) ?_
    simp only [step, St.get]
    split <;> exact ⟨rfl, rfl⟩
  | set key value ttl => exact same _ (by simp) (set_callers c st key value ttl)
  | finish fill outcome => exact same _ (by simp) (finish_callers c st fill outcome)
  | crash fill => exact same _ (by simp) (crash_callers st fill)
  | begin fill =>
    refine same _ (by simp) ?_
    simp only [step, St.begin]
    split <;> exact ⟨rfl, rfl⟩
  | tell fill =>
    refine same _ (by simp) ?_
    simp only [step, St.tell]
    split <;> exact ⟨rfl, rfl⟩
  | discard fill =>
    refine same _ (by simp) ?_
    simp only [step, St.discard]
    split
    · exact ⟨rfl, rfl⟩
    · exact crash_callers st fill
    · exact ⟨rfl, rfl⟩
  | squeeze key value => exact same _ (by simp) ⟨rfl, rfl⟩
  | invalidate key => exact same _ (by simp) ⟨rfl, rfl⟩
  | clear => exact same _ (by simp) ⟨rfl, rfl⟩
  | purge => exact same _ (by simp) ⟨rfl, rfl⟩
  | advance ms => exact same _ (by simp) ⟨rfl, rfl⟩

/-- what is true of a caller when it is admitted is true of it for as long as it is there -/
theorem step_caller (c : Setup) {st : St K V E J} {caller : Nat} {P : Caller K V → Prop} (act : Act K V E J)
    (h : caller < st.nextCaller ∧ ∀ g ∈ st.callers, g.id = caller → P g) :
    caller < (step c st act).nextCaller ∧ ∀ g ∈ (step c st act).callers, g.id = caller → P g := by
  cases step_callers c st act with
  | other _ hsub hnext => exact ⟨hnext ▸ h.1, fun g hg => h.2 g (hsub.subset hg)⟩
  | admitted key ttl job ticket _ _ hjoined hnext =>
    refine ⟨hnext ▸ Nat.lt_succ_of_lt h.1, fun g hg hid => ?_⟩
    rw [hjoined, List.mem_append, List.mem_singleton] at hg
    rcases hg with hg | rfl
    · exact h.2 g hg hid
    · exact absurd h.1 (by simp [← hid])

/-! ## Admissions in a run -/

/-- whether a caller asked for a key and was told to take a value or to wait for a fill -/
def Admitted (c : Setup) (acts : List (Act K V E J)) (caller : Nat) (key : K) (ticket : Ticket V) : Prop :=
  Took c acts fun st act => ∃ ttl job, act = .fetch key ttl job ∧ (st.fetch c key ttl job).2 = caller ∧
    Admits st key ttl job ticket (st.fetch c key ttl job).1.fills (st.fetch c key ttl job).1.store.marks

section

variable {c : Setup} {acts : List (Act K V E J)} {caller : Nat} {key key' : K} {ticket ticket' : Ticket V}

theorem Admitted.append (h : Admitted c acts caller key ticket) (more : List (Act K V E J)) :
    Admitted c (acts ++ more) caller key ticket :=
  Took.append h more

theorem Admitted.below (h : Admitted c acts caller key ticket) : caller < (run c .new acts).nextCaller := by
  induction acts using List.reverseRecOn with
  | nil => exact absurd h not_took_nil
  | append_singleton acts act ih =>
    rw [run_snoc]
    rcases took_snoc.1 h with h | ⟨ttl, job, hact, hcaller, -⟩
    · have hlt := ih h
      cases step_callers c (run c .new acts) act with
      | admitted _ _ _ _ _ _ _ hnext => omega
      | other _ _ hnext => omega
    · have hid := (fetch_caller c (run c .new acts) key ttl job).1
      cases step_callers c (run c .new acts) act with
      | admitted _ _ _ _ _ _ _ hnext => omega
      | other hno _ _ => exact absurd hact (hno key ttl job)

/-- a caller is admitted once -/
theorem Admitted.unique (h : Admitted c acts caller key ticket) (h' : Admitted c acts caller key' ticket') :
    key = key' ∧ ticket = ticket' := by
  induction acts using List.reverseRecOn with
  | nil => exact absurd h not_took_nil
  | append_singleton acts act ih =>
    rcases took_snoc.1 h with h | ⟨ttl, job, hact, hcaller, hadmits⟩
    · rcases took_snoc.1 h' with h' | ⟨ttl', job', -, hcaller', -⟩
      · exact ih h h'
      · have hlt := Admitted.below h
        rw [(fetch_caller c _ key' ttl' job').1] at hcaller'
        omega
    · rcases took_snoc.1 h' with h' | ⟨ttl', job', hact', -, hadmits'⟩
      · have hlt := Admitted.below h'
        rw [(fetch_caller c _ key ttl job).1] at hcaller
        omega
      · obtain ⟨rfl, rfl, rfl⟩ := Act.fetch.inj (hact.symm.trans hact')
        exact ⟨rfl, (hadmits.unique hadmits').1⟩

/-- every caller that has not left was told what its ticket says -/
theorem run_admitted (c : Setup) (acts : List (Act K V E J)) :
    ∀ g ∈ (run c .new acts).callers, Admitted c acts g.id g.key g.ticket := by
  induction acts using List.reverseRecOn with
  | nil => exact fun g hg => absurd hg List.not_mem_nil
  | append_singleton acts act ih =>
    intro g hg
    rw [run_snoc] at hg
    cases step_callers c (run c .new acts) act with
    | admitted key ttl job ticket hact hadmits hcallers _ =>
      rw [hcallers, List.mem_append, List.mem_singleton] at hg
      rcases hg with hg | rfl
      · exact (ih g hg).append [act]
      · exact took_snoc.2 (.inr ⟨ttl, job, hact, (fetch_caller c _ key ttl job).1, hadmits⟩)
    | other _ hsub _ => exact (ih g (hsub.subset hg)).append [act]

theorem run_callers_nodup (c : Setup) (acts : List (Act K V E J)) :
    ((run c (.new : St K V E J) acts).callers.map (·.id)).Nodup := by
  induction acts using List.reverseRecOn with
  | nil => exact List.nodup_nil
  | append_singleton acts act ih =>
    rw [run_snoc]
    cases step_callers c (run c .new acts) act with
    | admitted key ttl job ticket _ _ hcallers _ =>
      rw [hcallers, List.map_append]
      refine ih.append (List.nodup_singleton _) ?_
      intro id hid hnew
      obtain ⟨g, hg, rfl⟩ := List.mem_map.1 hid
      have hlt := (run_admitted c acts g hg).below
      have heq : g.id = (run c .new acts).nextCaller := by simpa using hnew
      omega
    | other _ hsub _ => exact ih.sublist (hsub.map _)

end

end ChainBridge.Cache
