/-
Runs of a cache, and what holds of its books throughout each.

`Took` says that an act of a certain kind was taken somewhere in a run, in a state of a certain kind: what is said of
the past of a cache is said with it. `moments` lists all the acts of a run, with the states in which they were taken.
A cache in use touches its books through `erase`, `clear`, `purge`, `makeRoom` and `insert`, moves its counters and
marks and unmarks keys, and does nothing else to them. `Lasting` lists just these, and `run_lasting` is the induction
over runs; `Heard` and `step_heard` are the same for the recorder. `land_run`: a fill that lands takes acts and does
nothing else.
-/
import Mathlib
import ChainBridge.Cache.Machine
import ChainBridge.Cache.Landing

namespace ChainBridge.Cache

variable {K V E J : Type} [DecidableEq K] [Footprint K] [Footprint V]

theorem run_append (c : Setup) (st : St K V E J) (l r : List (Act K V E J)) :
    run c st (l ++ r) = run c (run c st l) r :=
  List.foldl_append

theorem run_snoc (c : Setup) (st : St K V E J) (l : List (Act K V E J)) (a : Act K V E J) :
    run c st (l ++ [a]) = step c (run c st l) a := by
  rw [run_append]; rfl

/-- a cache under the default policy -/
def Setup.plain : Setup := ⟨"plain", .default⟩

/-- the moments of a run: each act, behind the state in which it was taken -/
def moments {σ α : Type} (step : σ → α → σ) (st : σ) : List α → List (σ × α)
  | [] => []
  | act :: rest => (st, act) :: moments step (step st act) rest

theorem moments_snoc {σ α : Type} (step : σ → α → σ) (st : σ) (acts : List α) (act : α) :
    moments step st (acts ++ [act]) = moments step st acts ++ [(acts.foldl step st, act)] := by
  induction acts generalizing st with
  | nil => rfl
  | cons first rest ih => exact congrArg ((st, first) :: ·) (ih (step st first))

/-- where a list with a last member is cut at one of its members, that is the last or the cut goes before the last -/
theorem split_snoc {α : Type} {l pre post : List α} {last a : α} (h : l ++ [last] = pre ++ a :: post) :
    (l = pre ∧ last = a ∧ post = []) ∨ ∃ post', post = post' ++ [last] ∧ l = pre ++ a :: post' := by
  rcases List.eq_nil_or_concat post with rfl | ⟨post', last', rfl⟩
  · obtain ⟨hl, hlast⟩ := List.append_inj' h rfl
    exact .inl ⟨hl, List.singleton_inj.1 hlast, rfl⟩
  · have hsplit : l ++ [last] = (pre ++ a :: post') ++ [last'] := by simpa using h
    obtain ⟨hl, hlast⟩ := List.append_inj' hsplit rfl
    exact .inr ⟨post', by rw [List.singleton_inj.1 hlast, List.concat_eq_append], hl⟩

/-- whether some act that was taken was such, in the state in which it was taken -/
def Took (c : Setup) (acts : List (Act K V E J)) (P : St K V E J → Act K V E J → Prop) : Prop :=
  ∃ pre act post, acts = pre ++ act :: post ∧ P (run c .new pre) act

section

variable {c : Setup} {P : St K V E J → Act K V E J → Prop}

theorem not_took_nil : ¬Took c [] P := by
  rintro ⟨pre, act, post, h, -⟩
  simp at h

theorem Took.append {acts : List (Act K V E J)} (h : Took c acts P) (more : List (Act K V E J)) :
    Took c (acts ++ more) P := by
  obtain ⟨pre, act, post, rfl, hp⟩ := h
  exact ⟨pre, act, post ++ more, by simp, hp⟩

theorem Took.mono {acts : List (Act K V E J)} {Q : St K V E J → Act K V E J → Prop} (h : Took c acts P)
    (hpq : ∀ st, ∀ act ∈ acts, P st act → Q st act) : Took c acts Q := by
  obtain ⟨pre, act, post, he, hp⟩ := h
  exact ⟨pre, act, post, he, hpq _ act (by simp [he]) hp⟩

theorem took_snoc {acts : List (Act K V E J)} {act : Act K V E J} :
    Took c (acts ++ [act]) P ↔ Took c acts P ∨ P (run c .new acts) act := by
  constructor
  · rintro ⟨pre, act', post, h, hp⟩
    rcases split_snoc h with ⟨rfl, rfl, rfl⟩ | ⟨post', rfl, rfl⟩
    · exact .inr hp
    · exact .inl ⟨pre, act', post', rfl, hp⟩
  · rintro (h | h)
    · exact h.append [act]
    · exact ⟨acts, act, [], rfl, h⟩

end

/-- what holds of the books whatever is done to them, in a cache of the given size -/
structure Lasting (max : Nat) (P : Store K V → Prop) : Prop where
  counted : ∀ s (c : Counters), P s → P { s with counters := c }
  marked : ∀ s (pending : List (Marker K)) (nextFill : Nat), P s → P { s with pending := pending, nextFill := nextFill }
  erased : ∀ s key, P s → P (s.erase key)
  cleared : ∀ s, P s → P s.clear
  purged : ∀ s now, P s → P (s.purge now).1
  squeezed : ∀ s now size key, P s → P (s.makeRoom max now size key).1
  inserted : ∀ s now key value ttl, P s → P (s.insert max now key value ttl).1

variable {max : Nat} {P : Store K V → Prop}

theorem Lasting.lookup (h : Lasting max P) (s : Store K V) (key : K) (now : Nat) (hs : P s) :
    P (s.lookup key now).1 := by
  unfold Store.lookup
  cases s.find? key with
  | none => exact hs
  | some e =>
    simp only
    split_ifs
    · exact h.counted _ _ (h.erased s key hs)
    · exact hs

theorem Lasting.ask (h : Lasting max P) (s : Store K V) (key : K) (now : Nat) (hs : P s) : P (s.ask key now).1 := by
  have hl := h.lookup s key now hs
  unfold Store.ask
  split
  · rename_i s' v he
    rw [he] at hl
    exact h.counted _ _ hl
  · rename_i s' found _ he
    rw [he] at hl
    simp only
    split
    · exact h.counted s' _ hl
    · have hc := h.counted s' { s'.counters with misses := s'.counters.misses + 1 } hl
      exact h.marked _ (s'.pending ++ [⟨key, s'.nextFill + 1, now⟩]) (s'.nextFill + 1) hc

theorem Lasting.release (h : Lasting max P) (s : Store K V) (key : K) (fill : Nat) (hs : P s) :
    P (s.release key fill) := by
  unfold Store.release
  split
  · exact hs
  · split_ifs
    · exact h.marked s _ s.nextFill hs
    · exact hs

theorem set_lasting {c : Setup} (h : Lasting c.policy.maxSize P) (st : St K V E J) (key : K) (value : V)
    (ttl : Option Nat) (hs : P st.store) : P (st.set c key value ttl).1.store := by
  have hi := h.inserted st.store st.now key value (ttl.getD c.policy.defaultTtl) hs
  simp only [St.set]
  split
  · rename_i s' he
    rw [he] at hi
    exact hi
  · rename_i s' freed he
    rw [he] at hi
    exact hi

theorem finish_lasting {c : Setup} (h : Lasting c.policy.maxSize P) (st : St K V E J) (fill : Nat)
    (outcome : Except E V) (hs : P st.store) : P (st.finish c fill outcome).store := by
  simp only [St.finish]
  split
  · rename_i key ttl job _
    have hr := h.release st.store key fill hs
    cases outcome with
    | ok v => exact set_lasting h { st with store := st.store.release key fill } key v ttl hr
    | error e => exact hr
  · exact hs

theorem crash_lasting (h : Lasting max P) (st : St K V E J) (fill : Nat) (hs : P st.store) :
    P (st.crash fill).store := by
  simp only [St.crash]
  split
  · exact h.release st.store _ fill hs
  · exact hs

theorem step_lasting {c : Setup} (h : Lasting c.policy.maxSize P) (st : St K V E J) (act : Act K V E J)
    (hs : P st.store) : P (step c st act).store := by
  cases act with
  | get key =>
    have hl := h.lookup st.store key st.now hs
    simp only [step, St.get]
    split
    · rename_i s' v he
      rw [he] at hl
      exact h.counted s' _ hl
    · rename_i s' found _ he
      rw [he] at hl
      exact h.counted s' _ hl
  | set key value ttl => exact set_lasting h st key value ttl hs
  | squeeze key value => exact h.squeezed st.store st.now (entrySize key value) key hs
  | invalidate key => exact h.erased st.store key hs
  | clear => exact h.cleared st.store hs
  | purge => exact h.purged st.store st.now hs
  | advance ms => exact hs
  | fetch key ttl job =>
    have ha := h.ask st.store key st.now hs
    simp only [step, St.fetch]
    split <;> exact ha
  | leave caller => exact hs
  | resume caller =>
    simp only [step, St.resume]
    split <;> exact hs
  | begin fill =>
    simp only [step, St.begin]
    split <;> exact hs
  | finish fill outcome => exact finish_lasting h st fill outcome hs
  | crash fill => exact crash_lasting h st fill hs
  | tell fill =>
    simp only [step, St.tell]
    split <;> exact hs
  | discard fill =>
    simp only [step, St.discard]
    split
    · exact hs
    · exact crash_lasting h st fill hs
    · exact hs

/-- what lasts through every operation on the books holds of them throughout every run -/
theorem run_lasting {c : Setup} (h : Lasting c.policy.maxSize P) (st : St K V E J) (acts : List (Act K V E J))
    (hs : P st.store) : P (run c st acts).store := by
  induction acts generalizing st with
  | nil => exact hs
  | cons a acts ih => exact ih _ (step_lasting h st a hs)

/-! ## The clock -/

/-- the time that passes while an act is taken -/
def Act.lapse : Act K V E J → Nat
  | .advance ms => ms
  | _ => 0

theorem set_now (c : Setup) (st : St K V E J) (key : K) (value : V) (ttl : Option Nat) :
    (st.set c key value ttl).1.now = st.now := by
  simp only [St.set]
  split <;> rfl

omit [Footprint K] [Footprint V] in
theorem crash_now (st : St K V E J) (fill : Nat) : (st.crash fill).now = st.now := by
  simp only [St.crash]
  split <;> rfl

theorem step_now (c : Setup) (st : St K V E J) (act : Act K V E J) : (step c st act).now = st.now + act.lapse := by
  cases act with
  | set key value ttl => exact set_now c st key value ttl
  | crash fill => exact crash_now st fill
  | finish fill outcome =>
    simp only [step, St.finish]
    split
    · rename_i key ttl job _
      cases outcome with
      | ok v => exact set_now c { st with store := st.store.release key fill } key v ttl
      | error e => rfl
    · rfl
  | discard fill =>
    simp only [step, St.discard]
    split
    · rfl
    · exact crash_now st fill
    · rfl
  | get key =>
    simp only [step, St.get]
    split <;> rfl
  | fetch key ttl job =>
    simp only [step, St.fetch]
    split <;> rfl
  | resume caller =>
    simp only [step, St.resume]
    split <;> rfl
  | begin fill =>
    simp only [step, St.begin]
    split <;> rfl
  | tell fill =>
    simp only [step, St.tell]
    split <;> rfl
  | _ => rfl

/-! ## The recorder -/

/-- what holds of the recorder whatever a cache tells it of lookups and of removals -/
structure Heard (cache : String) (P : Metrics.Registry → Prop) : Prop where
  hit : ∀ r, P r → P (r.hit cache)
  miss : ∀ r, P r → P (r.miss cache)
  coalesced : ∀ r, P r → P (r.coalesced cache)
  evicted : ∀ r reason n, P r → P (r.evicted cache reason n)

section

variable {c : Setup} {P : Metrics.Registry → Prop}

omit [Footprint K] [Footprint V] in
theorem crash_metrics (st : St K V E J) (fill : Nat) : (st.crash fill).metrics = st.metrics := by
  simp only [St.crash]
  split <;> rfl

theorem set_heard (h : Heard c.name P) (st : St K V E J) (key : K) (value : V) (ttl : Option Nat)
    (hr : P st.metrics) : P (st.set c key value ttl).1.metrics := by
  simp only [St.set]
  split
  · exact hr
  · exact h.evicted _ _ _ (h.evicted _ _ _ hr)

omit [Footprint K] [Footprint V] in
theorem get_heard (h : Heard c.name P) (st : St K V E J) (key : K) (hr : P st.metrics) :
    P (st.get c key).1.metrics := by
  simp only [St.get]
  split
  · exact h.hit _ hr
  · split
    · exact h.miss _ (h.evicted _ _ _ hr)
    · exact h.miss _ hr

omit [Footprint K] [Footprint V] in
theorem fetch_heard (h : Heard c.name P) (st : St K V E J) (key : K) (ttl : Option Nat) (job : J) (hr : P st.metrics) :
    P (st.fetch c key ttl job).1.metrics := by
  have hmet : P (if (st.store.ask key st.now).2.2 then st.metrics.evicted c.name "expired" 1 else st.metrics) := by
    split
    · exact h.evicted _ _ _ hr
    · exact hr
  simp only [St.fetch]
  split
  · exact h.hit _ hmet
  · exact h.coalesced _ hmet
  · exact h.miss _ hmet

/-- what holds whatever a cache tells holds after each act, if it holds whatever a sweep tells besides -/
theorem step_heard (h : Heard c.name P) (st : St K V E J) (act : Act K V E J)
    (hswept : act = .purge → ∀ r entries bytes, P r → P (r.occupancy c.name entries bytes)) (hr : P st.metrics) :
    P (step c st act).metrics := by
  cases act with
  | get key => exact get_heard h st key hr
  | set key value ttl => exact set_heard h st key value ttl hr
  | purge => exact hswept rfl _ _ _ (h.evicted _ _ _ hr)
  | fetch key ttl job => exact fetch_heard h st key ttl job hr
  | finish fill outcome =>
    simp only [step, St.finish]
    split
    · rename_i key ttl job _
      cases outcome with
      | ok v => exact set_heard h { st with store := st.store.release key fill } key v ttl hr
      | error e => exact hr
    · exact hr
  | crash fill =>
    rw [step, crash_metrics]
    exact hr
  | discard fill =>
    simp only [step, St.discard]
    split
    · exact hr
    · rw [crash_metrics]
      exact hr
    · exact hr
  | resume caller =>
    simp only [step, St.resume]
    split <;> exact hr
  | begin fill =>
    simp only [step, St.begin]
    split <;> exact hr
  | tell fill =>
    simp only [step, St.tell]
    split <;> exact hr
  | _ => exact hr

end

/-! ## Landings -/

/-- a fill that is concluded on a clock with an end does so by acts, none of which drops a task -/
theorem conclude_run (c : Setup) (horizon : Nat) (st : St K V E J) (fill : Nat) (outcome : Option (Except E V)) :
    ∃ acts, st.conclude c horizon fill outcome = run c st acts ∧ ∀ id, Act.discard id ∉ acts := by
  rcases outcome with _ | e | v
  · exact ⟨[.crash fill], rfl, by simp⟩
  · exact ⟨[.finish fill (.error e)], rfl, by simp⟩
  · cases hf : st.fill? fill with
    | none => exact ⟨[], by simp only [St.conclude, hf]; rfl, by simp⟩
    | some f =>
      cases hk : st.isKeepable c horizon f v with
      | true => exact ⟨[.finish fill (.ok v)], by simp only [St.conclude, hf, hk]; rfl, by simp⟩
      | false => exact ⟨[.crash fill, .squeeze f.key v], by simp only [St.conclude, hf, hk]; rfl, by simp⟩

theorem land_run (c : Setup) (horizon : Nat) (st : St K V E J) (fill : Nat) (outcome : Option (Except E V)) :
    ∃ acts, st.land c horizon fill outcome = run c st acts ∧ ∀ id, Act.discard id ∉ acts := by
  obtain ⟨acts, he, hacts⟩ := conclude_run c horizon st fill outcome
  refine ⟨acts ++ [.tell fill], ?_, ?_⟩
  · rw [run_snoc, ← he]
    rfl
  · intro id hm
    rcases List.mem_append.1 hm with hm | hm
    · exact hacts id hm
    · exact absurd hm (by simp)

end ChainBridge.Cache
