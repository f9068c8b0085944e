/-
No more requests are under way than are allowed, and one that waits too long is never sent.

A step of the client does to its pool what one step of the pool does (`step_stage`), so each request goes its way
through the stages whatever happens around it. From that: what is true of every state that a client comes to (`Sound`),
where a request must have been that stands at a stage (`was_held`, `was_left`, `gave_up_iff`), and where the permits are
that are neither free nor with a request under way (`St.handed`). `requests_capped` puts them together, and
`cap_not_exact` says what can not be had.
-/
import Mathlib
import ChainBridge.Proofs.Rpc.Permits
import ChainBridge.Rpc.Client

namespace ChainBridge.Rpc.Client

open Permits (Stage)

/-! ## The pool of a client -/

/-- what an act of the client does to its pool -/
def poolAct : Act → Permits.Act
  | .enter _ _ => .arrive
  | .resume id => .expire id
  | .answer _ _ => .advance 0
  | .finish id _ => .finish id
  | .leave id => .drop id
  | .wait ms => .advance ms

theorem poolAct_eq_expire {a : Act} {id : Nat} (h : poolAct a = .expire id) : a = .resume id := by
  cases a <;> simp_all [poolAct]

theorem poolAct_eq_drop {a : Act} {id : Nat} (h : poolAct a = .drop id) : a = .leave id := by
  cases a <;> simp_all [poolAct]

theorem poolAct_eq_arrive {a : Act} (h : poolAct a = .arrive) : ∃ url body, a = .enter url body := by
  cases a <;> simp_all [poolAct]

@[simp]
theorem send_pool (st : St) (id : Nat) : (st.send id).pool = st.pool := by
  unfold St.send
  split_ifs <;> rfl

theorem step_pool {st : St} (hopen : st.closed = false) (patience : Nat) (a : Act) :
    (step patience st a).pool = st.pool ∨ (step patience st a).pool = Permits.step patience st.pool (poolAct a) := by
  cases a with
  | enter url body =>
    refine Or.inr ?_
    simp only [step, St.enter, hopen, Bool.false_eq_true, if_false, send_pool]
    rfl
  | resume id =>
    simp only [step, St.resume, hopen, Bool.false_eq_true, if_false]
    split
    · exact Or.inl (send_pool st id)
    · split_ifs
      · exact Or.inr rfl
      · exact Or.inl rfl
    · exact Or.inl rfl
  | answer id status =>
    simp only [step, St.answer]
    split
    · split_ifs <;> exact Or.inl rfl
    · exact Or.inl rfl
  | finish id d =>
    simp only [step, St.finish]
    split
    · split_ifs
      · exact Or.inr rfl
      · exact Or.inl rfl
    · exact Or.inl rfl
  | leave id => exact Or.inr rfl
  | wait ms => exact Or.inr rfl

/-! ## Sound states -/

/-- what is true of every state that a client with so many permits comes to -/
structure Sound (size : Nat) (st : St) : Prop where
  pool : Permits.Sound size st.pool
  opened : st.closed = false
  once : st.sent.Nodup
  /-- only a request that got a permit was sent -/
  sent : ∀ id ∈ st.sent, ∃ s, st.pool.stage? id = some s ∧ s.Past
  /-- a result tells of giving up or of a delivery -/
  results : ∀ id r, (id, r) ∈ st.results → st.pool.stage? id = some .timedOut ∧ r = .error .timeout ∨
    st.pool.stage? id = some .ended ∧ ∃ d : Delivery, r = d.body
  timedOut : ∀ id, st.pool.stage? id = some .timedOut → (id, .error .timeout) ∈ st.results

theorem sound_new {config : Config} {st : St} (h : new? config = some st) : Sound (max 1 config.limit) st := by
  obtain ⟨size, hsize, rfl⟩ := Option.map_eq_some_iff.1 h
  unfold Permits.size? at hsize
  split_ifs at hsize
  obtain rfl : max config.limit 1 = size := Option.some.inj hsize
  rw [max_comm]
  refine ⟨Permits.sound_new _, rfl, List.nodup_nil, by simp, by simp, ?_⟩
  exact fun id hid => absurd hid (by simp [Permits.new, Permits.St.stage?])

section

variable {size patience : Nat} {st : St}

/-- each act takes each request a step on its way -/
theorem Sound.step_stage (h : Sound size st) (patience : Nat) (a : Act) (id : Nat) :
    Permits.Transition patience st.pool id (poolAct a) (st.pool.stage? id)
      ((step patience st a).pool.stage? id) := by
  rcases step_pool h.opened patience a with heq | heq
  · rw [heq]
    exact .same _ _
  · rw [heq]
    exact Permits.step_transition h.pool (poolAct a) id

theorem Sound.send (h : Sound size st) (id : Nat) : Sound size (st.send id) := by
  unfold St.send
  split_ifs with hsend
  · refine ⟨h.pool, h.opened, ?_, ?_, h.results, h.timedOut⟩
    · rw [List.nodup_append]
      refine ⟨h.once, List.nodup_singleton id, ?_⟩
      rintro i hi _ hnew rfl
      rw [List.mem_singleton] at hnew
      exact hsend.2 (hnew ▸ hi)
    · intro i hi
      rcases List.mem_append.1 hi with hi | hi
      · exact h.sent i hi
      · rw [List.mem_singleton] at hi
        rw [hi]
        exact ⟨.holding, hsend.1, Or.inl rfl⟩
  · exact h

/-- a step of the pool, with the results that belong to it -/
theorem Sound.after (h : Sound size st) (patience : Nat) (b : Permits.Act) {st' : St}
    (hpool : st'.pool = Permits.step patience st.pool b) (hopen : st'.closed = st.closed) (hsent : st'.sent = st.sent)
    {rs : List (Nat × Except Error (List UInt8))} (hresults : st'.results = st.results ++ rs)
    (hnew : ∀ id r, (id, r) ∈ rs → st'.pool.stage? id = some .timedOut ∧ r = .error .timeout ∨
      st'.pool.stage? id = some .ended ∧ ∃ d : Delivery, r = d.body)
    (hlate : ∀ id, b = .expire id → (id, .error .timeout) ∈ rs) : Sound size st' := by
  have hstage : ∀ id, Permits.Transition patience st.pool id b (st.pool.stage? id) (st'.pool.stage? id) := by
    intro id
    rw [hpool]
    exact Permits.step_transition h.pool b id
  refine ⟨by rw [hpool]; exact h.pool.step b, hopen.trans h.opened, hsent ▸ h.once, ?_, ?_, ?_⟩
  · intro id hid
    obtain ⟨s, hs, hpast⟩ := h.sent id (hsent ▸ hid)
    have hnext := hstage id
    rw [hs] at hnext
    exact hnext.past hpast
  · intro id r hr
    rw [hresults] at hr
    rcases List.mem_append.1 hr with hr | hr
    · have hnext := hstage id
      rcases h.results id r hr with ⟨hs, hr⟩ | ⟨hs, hr⟩
      · rw [hs] at hnext
        exact Or.inl ⟨hnext.final (Or.inr rfl), hr⟩
      · rw [hs] at hnext
        exact Or.inr ⟨hnext.final (Or.inl rfl), hr⟩
    · exact hnew id r hr
  · intro id hid
    have hnext := hstage id
    rw [hid] at hnext
    rw [hresults, List.mem_append]
    rcases hnext.timedOut with hs | rfl
    · exact Or.inl (h.timedOut id hs)
    · exact Or.inr (hlate id rfl)

theorem Sound.step (h : Sound size st) (a : Act) : Sound size (step patience st a) := by
  have hbare : ∀ (b : Permits.Act) (st' : St), st'.pool = Permits.step patience st.pool b → st'.closed = st.closed →
      st'.sent = st.sent → st'.results = st.results → (∀ id, b ≠ .expire id) → Sound size st' := by
    intro b st' hpool hopen hsent hresults hb
    exact h.after patience b hpool hopen hsent (hresults.trans (List.append_nil _).symm)
      (fun _ _ hr => absurd hr List.not_mem_nil) fun id hid => absurd hid (hb id)
  cases a with
  | enter url body =>
    simp only [Client.step, St.enter]
    rw [if_neg (Bool.eq_false_iff.1 h.opened)]
    apply Sound.send
    exact hbare .arrive _ rfl rfl rfl rfl fun _ => by simp
  | resume id =>
    simp only [Client.step, St.resume]
    split
    · exact h.send id
    · rename_i since hwaiting
      rw [if_neg (Bool.eq_false_iff.1 h.opened)]
      split_ifs with hdue
      · refine h.after patience (.expire id) rfl rfl rfl rfl ?_ ?_
        · intro i r hr
          rw [List.mem_singleton, Prod.mk.injEq] at hr
          obtain ⟨rfl, rfl⟩ := hr
          refine Or.inl ⟨?_, rfl⟩
          show (st.pool.expire patience i).stage? i = some .timedOut
          rw [Permits.expire_eq hwaiting hdue, Permits.St.stage?_move, hwaiting, Option.map_some, if_pos rfl]
        · intro i hi
          rw [Permits.Act.expire.injEq] at hi
          rw [hi]
          exact List.mem_singleton_self _
      · exact h
    · exact h
  | answer id status =>
    simp only [Client.step, St.answer]
    split
    · split_ifs
      · exact ⟨h.pool, h.opened, h.once, h.sent, h.results, h.timedOut⟩
      · exact h
    · exact h
  | finish id d =>
    simp only [Client.step, St.finish]
    split
    · rename_i r _
      split_ifs with hfits
      · have hold : st.pool.stage? id = some .holding := by
          have hunder := hfits.1
          rw [St.isUnderWay, Bool.and_eq_true, decide_eq_true_eq] at hunder
          exact of_decide_eq_true hunder.2
        refine h.after patience (.finish id) rfl rfl rfl rfl ?_ fun _ hi => absurd hi (by simp)
        intro i r' hr
        rw [List.mem_singleton, Prod.mk.injEq] at hr
        obtain ⟨rfl, rfl⟩ := hr
        exact Or.inr ⟨Permits.finish_stage h.pool hold, _, rfl⟩
      · exact h
    · exact h
  | leave id => exact hbare (.drop id) _ rfl rfl rfl rfl fun _ => by simp
  | wait ms => exact hbare (.advance ms) _ rfl rfl rfl rfl fun _ => by simp

theorem Sound.run (h : Sound size st) (patience : Nat) (acts : List Act) : Sound size (run patience st acts) := by
  induction acts generalizing st with
  | nil => exact h
  | cons a acts ih => exact ih (h.step a)

theorem run_append (patience : Nat) (st : St) (acts more : List Act) :
    run patience st (acts ++ more) = run patience (run patience st acts) more := List.foldl_append

/-! ## Where a request has been -/

/-- what is true of the stage of a request and kept by every transition is true of it from then on -/
theorem stage_run {id : Nat} {P : Stage → Prop}
    (hkeep : ∀ pool b s new, Permits.Transition patience pool id b (some s) new → P s → ∃ t, new = some t ∧ P t)
    (h : Sound size st) {s : Stage} (hs : st.pool.stage? id = some s) (hp : P s) (acts : List Act) :
    ∃ t, (run patience st acts).pool.stage? id = some t ∧ P t := by
  induction acts generalizing st s with
  | nil => exact ⟨s, hs, hp⟩
  | cons a acts ih =>
    have hstep := h.step_stage patience a id
    rw [hs] at hstep
    obtain ⟨t, ht, hpt⟩ := hkeep _ _ _ _ hstep hp
    exact ih (h.step a) ht hpt

/-- a request that got a permit keeps having got it -/
theorem past_run (h : Sound size st) {id : Nat} {s : Stage} (hs : st.pool.stage? id = some s) (hpast : s.Past)
    (acts : List Act) : ∃ t, (run patience st acts).pool.stage? id = some t ∧ t.Past :=
  stage_run (fun _ _ _ _ htransition => htransition.past) h hs hpast acts

/-- a request that gave up stays so -/
theorem timedOut_run (h : Sound size st) {id : Nat} (hs : st.pool.stage? id = some .timedOut) (acts : List Act) :
    (run patience st acts).pool.stage? id = some .timedOut := by
  have hkeep : ∀ pool b s new, Permits.Transition patience pool id b (some s) new → s = .timedOut →
      ∃ t, new = some t ∧ t = .timedOut := by
    intro pool b s new htransition heq
    exact ⟨s, htransition.final (Or.inr heq), heq⟩
  obtain ⟨t, ht, rfl⟩ := stage_run hkeep h hs rfl acts
  exact ht

/-- a request that is still in line has been there since the same instant -/
theorem waiting_run (h : Sound size st) {id since : Nat} (hs : st.pool.stage? id = some (.waiting since))
    (acts : List Act) : ∃ s, (run patience st acts).pool.stage? id = some s ∧ ∀ t, s = .waiting t → t = since := by
  refine stage_run ?_ h hs (fun t ht => (Stage.waiting.inj ht).symm) acts
  intro pool b s new htransition hsince
  cases htransition with
  | same => exact ⟨s, rfl, hsince⟩
  | handed => exact ⟨_, rfl, by simp⟩
  | ended => exact ⟨_, rfl, by simp⟩
  | left => exact ⟨_, rfl, by simp⟩
  | gaveUp => exact ⟨_, rfl, by simp⟩

/-- a request came to the stage at which it is by a step from another one -/
theorem came_to (h : Sound size st) {id : Nat} {s : Stage} (hstart : st.pool.stage? id ≠ some s) (acts : List Act)
    (hs : (run patience st acts).pool.stage? id = some s) :
    ∃ before a, before ++ [a] <+: acts ∧ (run patience st (before ++ [a])).pool.stage? id = some s ∧
      ∃ old, old ≠ some s ∧ (run patience st before).pool.stage? id = old ∧
        Permits.Transition patience (run patience st before).pool id (poolAct a) old (some s) := by
  induction acts using List.reverseRecOn with
  | nil => exact absurd hs hstart
  | append_singleton acts a ih =>
    by_cases hbefore : (run patience st acts).pool.stage? id = some s
    · obtain ⟨before, b, hprefix, hcame⟩ := ih hbefore
      exact ⟨before, b, hprefix.trans (List.prefix_append acts [a]), hcame⟩
    · have hstep := (h.run patience acts).step_stage patience a id
      have hlast : run patience st (acts ++ [a]) = step patience (run patience st acts) a :=
        run_append patience st acts [a]
      rw [← hlast, hs] at hstep
      exact ⟨acts, a, List.prefix_refl _, hs, _, hbefore, rfl, hstep⟩

/-- a request that ended held a permit before -/
theorem was_held (h : Sound size st) {id : Nat} (hstart : st.pool.stage? id ≠ some .ended) {acts : List Act}
    (hended : (run patience st acts).pool.stage? id = some .ended) :
    ∃ before, before <+: acts ∧ (run patience st before).pool.stage? id = some .holding := by
  obtain ⟨before, a, hprefix, -, old, hne, hold, hstep⟩ := came_to h hstart acts hended
  refine ⟨before, (List.prefix_append before [a]).trans hprefix, ?_⟩
  generalize poolAct a = b at hstep
  cases hstep with
  | same => exact absurd rfl hne
  | ended => exact hold

/-- a request that was dropped was left by its caller -/
theorem was_left (h : Sound size st) {id : Nat} (hstart : st.pool.stage? id ≠ some .dropped) {acts : List Act}
    (hdropped : (run patience st acts).pool.stage? id = some .dropped) : .leave id ∈ acts := by
  obtain ⟨before, a, hprefix, -, old, hne, -, hstep⟩ := came_to h hstart acts hdropped
  refine hprefix.subset (List.mem_append_right before (List.mem_singleton.2 ?_))
  generalize hb : poolAct a = b at hstep
  cases hstep with
  | same => exact absurd rfl hne
  | left => exact (poolAct_eq_drop hb).symm

/-! ## Giving up -/

theorem resume_due (h : Sound size st) {id since : Nat} (hwaiting : st.pool.stage? id = some (.waiting since))
    (hdue : since + patience ≤ st.pool.now) : st.resume patience id =
      { st with pool := st.pool.move id .timedOut }.conclude id (.error .timeout) := by
  simp only [St.resume, hwaiting]
  rw [if_neg (Bool.eq_false_iff.1 h.opened), if_pos hdue, Permits.expire_eq hwaiting hdue]

theorem resume_early (h : Sound size st) {id since : Nat} (hwaiting : st.pool.stage? id = some (.waiting since))
    (hearly : st.pool.now < since + patience) : st.resume patience id = st := by
  simp only [St.resume, hwaiting]
  rw [if_neg (Bool.eq_false_iff.1 h.opened), if_neg (Nat.not_le.2 hearly)]

/-- a request that gave up has its result and was not sent -/
theorem Sound.gaveUp (h : Sound size st) {id : Nat} (hs : st.pool.stage? id = some .timedOut) :
    (id, .error .timeout) ∈ st.results ∧ id ∉ st.sent := by
  refine ⟨h.timedOut id hs, fun hsent => ?_⟩
  obtain ⟨s, hs', hpast⟩ := h.sent id hsent
  rw [hs, Option.some.injEq] at hs'
  rw [← hs'] at hpast
  rcases hpast with hpast | hpast | hpast <;> exact absurd hpast (by simp)

/-- a request in line that is looked at when its patience is over gives up, and no other does -/
theorem gave_up_iff (h : Sound size st) {id : Nat} (hstart : st.pool.stage? id ≠ some .timedOut) {acts : List Act} :
    (run patience st acts).pool.stage? id = some .timedOut ↔
      ∃ before since, before ++ [.resume id] <+: acts ∧
        (run patience st before).pool.stage? id = some (.waiting since) ∧
        since + patience ≤ (run patience st before).pool.now := by
  constructor
  · intro hgone
    obtain ⟨before, a, hprefix, -, old, hne, hold, hstep⟩ := came_to h hstart acts hgone
    generalize hb : poolAct a = b at hstep
    cases hstep with
    | same => exact absurd rfl hne
    | gaveUp hdue =>
      obtain rfl := poolAct_eq_expire hb
      exact ⟨before, _, hprefix, hold, hdue⟩
  · rintro ⟨before, since, ⟨rest, rfl⟩, hwaiting, hdue⟩
    have hbefore := h.run patience before
    have hgone : (step patience (run patience st before) (.resume id)).pool.stage? id = some .timedOut := by
      rw [step, resume_due hbefore hwaiting hdue]
      show ((run patience st before).pool.move id .timedOut).stage? id = some .timedOut
      rw [Permits.St.stage?_move, hwaiting, Option.map_some, if_pos rfl]
    rw [run_append, run_append]
    exact timedOut_run (hbefore.step (.resume id)) hgone rest

/-! ## Permits on their way -/

/-- the requests that are past the permit and have not ended -/
def St.underWay (st : St) : List Nat := st.sent.filter st.isUnderWay

/-- the requests that have been given a permit and have not been looked at since -/
def St.handed (st : St) : List Nat :=
  ((st.pool.requests.filter fun r => decide (r.stage = .holding)).filter fun r => decide (r.id ∉ st.sent)).map (·.id)

theorem Sound.mem_handed (h : Sound size st) {id : Nat} :
    id ∈ st.handed ↔ st.pool.stage? id = some .holding ∧ id ∉ st.sent := by
  simp only [St.handed, List.mem_map, List.mem_filter, decide_eq_true_eq]
  constructor
  · rintro ⟨r, ⟨⟨hr, hstage⟩, hunsent⟩, rfl⟩
    exact ⟨hstage ▸ Permits.St.stage?_of_mem h.pool.ids hr, hunsent⟩
  · rintro ⟨hstage, hunsent⟩
    obtain ⟨r, hr, rfl, hold⟩ := Permits.St.exists_of_stage? hstage
    exact ⟨r, ⟨⟨hr, hold⟩, hunsent⟩, rfl⟩

theorem St.mem_underWay {id : Nat} : id ∈ st.underWay ↔ st.pool.stage? id = some .holding ∧ id ∈ st.sent := by
  rw [St.underWay, List.mem_filter, St.isUnderWay, Bool.and_eq_true, decide_eq_true_eq, decide_eq_true_eq]
  exact ⟨fun ⟨hsent, _, hstage⟩ => ⟨hstage, hsent⟩, fun ⟨hstage, hsent⟩ => ⟨hsent, hsent, hstage⟩⟩

/-- a permit that is held is with a request under way, or on its way to one -/
theorem Sound.holding_eq (h : Sound size st) : st.underWay.length + st.handed.length = st.pool.holding := by
  have hperm : st.underWay.Perm
      (((st.pool.requests.filter fun r => decide (r.stage = .holding)).filter fun r => decide (r.id ∈ st.sent)).map
        (·.id)) := by
    have hids : (((st.pool.requests.filter fun r => decide (r.stage = .holding)).filter fun r =>
        decide (r.id ∈ st.sent)).map (·.id)).Nodup :=
      h.pool.ids.sublist ((List.filter_sublist.trans List.filter_sublist).map _)
    refine (List.perm_ext_iff_of_nodup (h.once.filter _) hids).2 fun id => ?_
    rw [← St.underWay, St.mem_underWay]
    simp only [List.mem_map, List.mem_filter, decide_eq_true_eq]
    constructor
    · rintro ⟨hstage, hsent⟩
      obtain ⟨r, hr, rfl, hold⟩ := Permits.St.exists_of_stage? hstage
      exact ⟨r, ⟨⟨hr, hold⟩, hsent⟩, rfl⟩
    · rintro ⟨r, ⟨⟨hr, hstage⟩, hsent⟩, rfl⟩
      exact ⟨hstage ▸ Permits.St.stage?_of_mem h.pool.ids hr, hsent⟩
  rw [hperm.length_eq, List.length_map, St.handed, List.length_map, Permits.St.holding]
  have hsplit := List.length_eq_length_filter_add (l := st.pool.requests.filter fun r => decide (r.stage = .holding))
    fun r => decide (r.id ∈ st.sent)
  simpa using hsplit.symm

theorem send_sent (st : St) (id : Nat) : st.sent ⊆ (st.send id).sent := by
  unfold St.send
  split_ifs
  · exact List.subset_append_left _ _
  · exact List.Subset.refl _

theorem step_sent (patience : Nat) (st : St) (a : Act) : st.sent ⊆ (step patience st a).sent := by
  cases a with
  | enter url body =>
    simp only [step, St.enter]
    split_ifs
    · exact List.Subset.refl _
    · exact send_sent { st with pool := st.pool.arrive, requests := st.requests ++ [⟨st.pool.nextId, url, body⟩] } _
  | resume id =>
    simp only [step, St.resume]
    split
    · exact send_sent st id
    · split_ifs <;> exact List.Subset.refl _
    · exact List.Subset.refl _
  | answer id status =>
    simp only [step, St.answer]
    split
    · split_ifs <;> exact List.Subset.refl _
    · exact List.Subset.refl _
  | finish id d =>
    simp only [step, St.finish]
    split
    · split_ifs <;> exact List.Subset.refl _
    · exact List.Subset.refl _
  | leave id => exact List.Subset.refl _
  | wait ms => exact List.Subset.refl _

theorem run_sent (patience : Nat) (st : St) (acts : List Act) : st.sent ⊆ (run patience st acts).sent := by
  induction acts generalizing st with
  | nil => exact List.Subset.refl _
  | cons a acts ih => exact List.Subset.trans (step_sent patience st a) (ih (step patience st a))

/-- a request that has a permit is under way once it has been looked at -/
theorem send_underWay {id : Nat} (hstage : st.pool.stage? id = some .holding) : id ∈ (st.send id).underWay := by
  rw [St.mem_underWay, send_pool]
  refine ⟨hstage, ?_⟩
  unfold St.send
  split_ifs with hsend
  · exact List.mem_append_right _ (List.mem_singleton_self id)
  · by_contra hunsent
    exact hsend ⟨hstage, hunsent⟩

/-- a request that is given a permit as it comes in does not rest before it is sent -/
theorem enter_sent (h : Sound size st) {url : String} {body : List UInt8}
    (hstage : (st.enter url body).pool.stage? st.pool.nextId = some .holding) :
    st.pool.nextId ∈ (st.enter url body).sent := by
  simp only [St.enter, h.opened, Bool.false_eq_true, if_false, send_pool] at hstage ⊢
  exact (St.mem_underWay.1 (send_underWay hstage)).2

/-- a permit is on its way to none but a request that was in line -/
theorem handed_waited (h : Sound size st) {id : Nat} (hstart : st.pool.stage? id ≠ some .holding) {acts : List Act}
    (hid : id ∈ (run patience st acts).handed) :
    ∃ before since, before <+: acts ∧ (run patience st before).pool.stage? id = some (.waiting since) := by
  obtain ⟨hstage, hunsent⟩ := (h.run patience acts).mem_handed.1 hid
  obtain ⟨before, a, ⟨rest, rfl⟩, hholding, old, hne, hold, hstep⟩ := came_to h hstart acts hstage
  generalize hb : poolAct a = b at hstep
  cases hstep with
  | same => exact absurd rfl hne
  | handed _ since => exact ⟨before, since, ⟨a :: rest, by simp⟩, hold⟩
  | served hnew =>
    -- it came in while there was a permit for it, and was sent at once
    obtain ⟨url, body, rfl⟩ := poolAct_eq_arrive hb
    rw [run_append] at hholding
    rw [run_append, run_append] at hunsent
    subst hnew
    exact absurd (run_sent patience _ rest (enter_sent (h.run patience before) hholding)) hunsent

/-! ## Timers that are on time -/

theorem step_now (h : Sound size st) (patience : Nat) (a : Act) :
    (step patience st a).pool.now = st.pool.now + Permits.elapsed (poolAct a) ∨
      (step patience st a).pool = st.pool := by
  rcases step_pool h.opened patience a with heq | heq
  · exact Or.inr heq
  · rw [heq]
    exact Or.inl (Permits.step_now patience st.pool (poolAct a))

/-- time does not pass beyond the patience of a request in line: the request is looked at first -/
def Prompt (patience : Nat) : St → List Act → Prop
  | _, [] => True
  | st, a :: acts =>
    (∀ id since, st.pool.stage? id = some (.waiting since) →
      st.pool.now + Permits.elapsed (poolAct a) ≤ since + patience) ∧ Prompt patience (step patience st a) acts

/-- nobody in line has waited for too long -/
def OnTime (patience : Nat) (st : St) : Prop :=
  ∀ id since, st.pool.stage? id = some (.waiting since) → st.pool.now ≤ since + patience

theorem Prompt.of_append {acts more : List Act} (h : Prompt patience st (acts ++ more)) :
    Prompt patience st acts ∧ Prompt patience (run patience st acts) more := by
  induction acts generalizing st with
  | nil => exact ⟨trivial, h⟩
  | cons a acts ih =>
    obtain ⟨hbefore, hafter⟩ := ih h.2
    exact ⟨⟨h.1, hbefore⟩, hafter⟩

/-- a request in line is not late after the next act either -/
theorem now_step_le (h : Sound size st) (htime : OnTime patience st) {a : Act} {acts : List Act}
    (hprompt : Prompt patience st (a :: acts)) {id since : Nat} (hwaiting : st.pool.stage? id = some (.waiting since)) :
    (step patience st a).pool.now ≤ since + patience := by
  rcases step_now h patience a with heq | heq
  · rw [heq]
    exact hprompt.1 id since hwaiting
  · rw [heq]
    exact htime id since hwaiting

theorem onTime_step (h : Sound size st) (htime : OnTime patience st) {a : Act} {acts : List Act}
    (hprompt : Prompt patience st (a :: acts)) : OnTime patience (step patience st a) := by
  intro id since hwaiting
  have hstep := h.step_stage patience a id
  rw [hwaiting] at hstep
  generalize hold : st.pool.stage? id = old at hstep
  generalize hb : poolAct a = b at hstep
  cases hstep with
  | same => exact now_step_le h htime hprompt hold
  | queued =>
    -- it has just come
    have helapsed : Permits.elapsed (poolAct a) = 0 := by
      rw [hb]
      rfl
    rcases step_now h patience a with heq | heq
    · omega
    · rw [heq]
      omega

theorem onTime_run (h : Sound size st) (htime : OnTime patience st) {acts : List Act}
    (hprompt : Prompt patience st acts) : OnTime patience (run patience st acts) := by
  induction acts generalizing st with
  | nil => exact htime
  | cons a acts ih => exact ih (h.step a) (onTime_step h htime hprompt) hprompt.2

/-- if timers are on time, a request in line that gets a permit gets it in time -/
theorem held_in_time (h : Sound size st) (htime : OnTime patience st) {acts : List Act}
    (hprompt : Prompt patience st acts) {id since : Nat} (hwaiting : st.pool.stage? id = some (.waiting since))
    (hheld : (run patience st acts).pool.stage? id = some .holding) :
    ∃ more, more <+: acts ∧ (run patience st more).pool.stage? id = some .holding ∧
      (run patience st more).pool.now ≤ since + patience := by
  obtain ⟨before, a, ⟨rest, rfl⟩, hheld', old, hne, hold, hstep⟩ := came_to h (by rw [hwaiting]; simp) acts hheld
  rw [List.append_assoc] at hprompt
  obtain ⟨hbefore, hafter⟩ := hprompt.of_append
  obtain ⟨s, hs, hsince⟩ := waiting_run h hwaiting before
  refine ⟨before ++ [a], List.prefix_append _ rest, hheld', ?_⟩
  have hnow : (run patience st before).pool.stage? id = some (.waiting since) := by
    rw [hs] at hold
    generalize poolAct a = b at hstep
    cases hstep with
    | same => exact absurd rfl hne
    | served => exact absurd hold (by simp)
    | handed _ t =>
      rw [hs, hold, hsince t (Option.some.inj hold)]
  rw [run_append]
  exact now_step_le (h.run patience before) (onTime_run h htime hbefore) hafter hnow

/-- if timers are on time, a request that is not given a permit in time and not left gives up -/
theorem gives_up (h : Sound size st) (htime : OnTime patience st) {acts : List Act}
    (hprompt : Prompt patience st acts) {id since : Nat} (hwaiting : st.pool.stage? id = some (.waiting since))
    (hlate : since + patience < (run patience st acts).pool.now) (hleft : .leave id ∉ acts)
    (hnever : ∀ more, more <+: acts → (run patience st more).pool.now ≤ since + patience →
      (run patience st more).pool.stage? id ≠ some .holding) :
    (run patience st acts).pool.stage? id = some .timedOut := by
  have hheld : ∀ more, more <+: acts → (run patience st more).pool.stage? id ≠ some .holding := by
    rintro more ⟨rest, rfl⟩ hholding
    obtain ⟨first, hfirst, hholding', hnow⟩ := held_in_time h htime hprompt.of_append.1 hwaiting hholding
    exact hnever first (hfirst.trans (List.prefix_append more rest)) hnow hholding'
  obtain ⟨s, hs, hsince⟩ := waiting_run h hwaiting acts
  cases s with
  | waiting t =>
    obtain rfl := hsince t rfl
    exact absurd (onTime_run h htime hprompt id t hs) (Nat.not_le.2 hlate)
  | holding => exact absurd hs (hheld acts (List.prefix_refl acts))
  | ended =>
    obtain ⟨before, hbefore, hholding⟩ := was_held h (by rw [hwaiting]; simp) hs
    exact absurd hholding (hheld before hbefore)
  | timedOut => exact hs
  | dropped => exact absurd (was_left h (by rw [hwaiting]; simp) hs) hleft

end

/-- no delivery tells of the limit -/
theorem body_ne_limit (d : Delivery) (text : String) : d.body ≠ .error (.concurrencyLimit text) := by
  cases d with
  | broken status late =>
    rw [Delivery.body]
    split_ifs <;> simp
  | answered status body =>
    rw [Delivery.body]
    split_ifs <;> simp
  | unusableUrl => simp [Delivery.body]
  | unreachable => simp [Delivery.body]
  | closed => simp [Delivery.body]
  | timedOut => simp [Delivery.body]

/-- **The cap.** Whatever happens to a client, the requests that are past the permit and have not ended are no more than
the limit, or than one. With the permits that are free, and those that have been given to requests in line which have
not been looked at since, they come to it, and such a request is sent when it is looked at. A request gives up just if
it is looked at in line when its patience is over: then it ends with a timeout for good, was never sent and never held a
permit, and no permit changes hands. If timers are on time, so does every one that is given no permit within its
patience and is not left by its caller. No request ends with an error of the limit itself. -/
theorem requests_capped {config : Config} {st : St} (hnew : new? config = some st) (acts : List Act) :
    let reached := run config.patience st acts
    (reached.underWay.length ≤ max 1 config.limit ∧
      reached.underWay.length + reached.handed.length + reached.pool.free = max 1 config.limit ∧
      ∀ id ∈ reached.handed,
        (∃ before since, before <+: acts ∧
          (run config.patience st before).pool.stage? id = some (.waiting since)) ∧
        id ∉ reached.underWay ∧ id ∈ (reached.resume config.patience id).underWay) ∧
    (∀ id, (reached.pool.stage? id = some .timedOut ↔
        ∃ before since, before ++ [.resume id] <+: acts ∧
          (run config.patience st before).pool.stage? id = some (.waiting since) ∧
          since + config.patience ≤ (run config.patience st before).pool.now) ∧
      (reached.pool.stage? id = some .timedOut → (id, .error .timeout) ∈ reached.results ∧ id ∉ reached.sent ∧
        ∀ part, part <+: acts → (run config.patience st part).pool.stage? id ≠ some .holding)) ∧
    (∀ id since, reached.pool.stage? id = some (.waiting since) →
      let resumed := reached.resume config.patience id
      (reached.pool.now < since + config.patience → resumed = reached) ∧
      (since + config.patience ≤ reached.pool.now →
        resumed.pool.holding = reached.pool.holding ∧ resumed.pool.free = reached.pool.free ∧
        ∀ more, (run config.patience resumed more).pool.stage? id = some .timedOut)) ∧
    (Prompt config.patience st acts → ∀ before id since, before <+: acts →
      (run config.patience st before).pool.stage? id = some (.waiting since) →
      since + config.patience < reached.pool.now → .leave id ∉ acts →
      (∀ part, part <+: acts → (run config.patience st part).pool.now ≤ since + config.patience →
        (run config.patience st part).pool.stage? id ≠ some .holding) →
      reached.pool.stage? id = some .timedOut) ∧
    ∀ id text, (id, .error (.concurrencyLimit text)) ∉ reached.results := by
  intro reached
  have hstart := sound_new hnew
  have hreached : Sound (max 1 config.limit) reached := hstart.run config.patience acts
  have hempty : ∀ id, st.pool.stage? id = none := by
    obtain ⟨size, -, rfl⟩ := Option.map_eq_some_iff.1 hnew
    exact fun id => rfl
  have hbalanced := hreached.pool.balanced
  have hholding := hreached.holding_eq
  refine ⟨⟨by omega, by omega, fun id hid => ?_⟩, fun id => ⟨?_, fun hid => ?_⟩, ?_, ?_, ?_⟩
  · obtain ⟨hstage, hunsent⟩ := hreached.mem_handed.1 hid
    refine ⟨handed_waited hstart (by simp [hempty]) hid, fun hunder => hunsent (St.mem_underWay.1 hunder).2, ?_⟩
    simp only [St.resume, hstage]
    exact send_underWay hstage
  · exact gave_up_iff hstart (by simp [hempty])
  · obtain ⟨hresult, hunsent⟩ := hreached.gaveUp hid
    refine ⟨hresult, hunsent, ?_⟩
    rintro part ⟨rest, hacts⟩ hholding
    obtain ⟨s, hs, hpast⟩ := past_run (hstart.run config.patience part) hholding (Or.inl rfl) rest
    rw [← run_append, hacts] at hs
    obtain rfl : Stage.timedOut = s := Option.some.inj (hid.symm.trans hs)
    rcases hpast with hpast | hpast | hpast <;> exact absurd hpast (by simp)
  · intro id since hwaiting resumed
    refine ⟨fun hearly => resume_early hreached hwaiting hearly, fun hdue => ?_⟩
    have hresumed : resumed = { reached with pool := reached.pool.move id .timedOut }.conclude id (.error .timeout) :=
      resume_due hreached hwaiting hdue
    have hsound : Sound (max 1 config.limit) resumed := hreached.step (.resume id)
    have hstage : resumed.pool.stage? id = some .timedOut := by
      rw [hresumed]
      show (reached.pool.move id .timedOut).stage? id = some .timedOut
      rw [Permits.St.stage?_move, hwaiting, Option.map_some, if_pos rfl]
    refine ⟨?_, by rw [hresumed]; rfl, fun more => timedOut_run hsound hstage more⟩
    rw [hresumed]
    exact Permits.St.holding_move hreached.pool.ids hwaiting .timedOut
  · rintro hprompt before id since ⟨rest, rfl⟩ hwaiting hlate hleft hnever
    have htime : OnTime config.patience st := fun i t hwait => absurd hwait (by simp [hempty])
    obtain ⟨hbefore, hrest⟩ := hprompt.of_append
    have hlater : reached = run config.patience (run config.patience st before) rest :=
      run_append config.patience st before rest
    rw [hlater] at hlate ⊢
    refine gives_up (hstart.run config.patience before) (onTime_run hstart htime hbefore) hrest hwaiting hlate ?_ ?_
    · exact fun hmem => hleft (List.mem_append_right before hmem)
    · intro more hmore hnow
      rw [← run_append] at hnow ⊢
      exact hnever (before ++ more) ((List.prefix_append_right_inj before).2 hmore) hnow
  · intro id text hresult
    rcases hreached.results id _ hresult with ⟨-, hr⟩ | ⟨-, d, hd⟩
    · exact absurd hr (by simp)
    · exact body_ne_limit d text hd.symm

/-- with a limit of none there is one permit; the second of two requests waits 100 ms for it and gives up -/
theorem requests_capped_single :
    let st : St := ⟨Permits.new 1, false, [], [], [], []⟩
    let acts : List Act := [.enter "http://node" [], .enter "http://node" [], .wait 100, .resume 2, .wait 1]
    new? ⟨0, 100⟩ = some st ∧ Prompt 100 st acts ∧ (run 100 st (acts.take 2)).pool.stage? 2 = some (.waiting 0) ∧
      (run 100 st acts).pool.stage? 2 = some .timedOut ∧
      (run 100 st acts).underWay.length + (run 100 st acts).handed.length + (run 100 st acts).pool.free = 1 ∧
      (2, .error .timeout) ∈ (run 100 st acts).results ∧ 2 ∉ (run 100 st acts).sent := by
  intro st acts
  have hnew : new? ⟨0, 100⟩ = some st := rfl
  have hwaiting : (run 100 st (acts.take 2)).pool.stage? 2 = some (.waiting 0) := by decide
  have hprompt : Prompt 100 st acts := by
    refine ⟨fun _ since _ => ?_, fun _ since _ => ?_, fun _ since _ => ?_, fun _ since _ => ?_, fun id since h => ?_,
      trivial⟩
    · exact show 0 + 0 ≤ since + 100 by omega
    · exact show 0 + 0 ≤ since + 100 by omega
    · exact show 0 + 100 ≤ since + 100 by omega
    · exact show 100 + 0 ≤ since + 100 by omega
    · obtain ⟨r, hr, -, hstage⟩ := Permits.St.exists_of_stage? h
      have hnone : ∀ r ∈ (run 100 st (acts.take 4)).pool.requests, r.stage = .holding ∨ r.stage = .timedOut := by decide
      rcases hnone r hr with hs | hs <;> exact absurd (hs.symm.trans hstage) (by simp)
  have hnever : ∀ part ∈ acts.inits, (run 100 st part).pool.stage? 2 ≠ some .holding := by decide
  obtain ⟨hcap, hgone, -, htime, -⟩ := requests_capped hnew acts
  have hstage := htime hprompt (acts.take 2) 2 0 (List.take_prefix 2 acts) hwaiting (by decide) (by simp [acts])
    fun part hpart _ => hnever part ((List.mem_inits part acts).2 hpart)
  obtain ⟨hresult, hunsent, -⟩ := (hgone 2).2 hstage
  exact ⟨hnew, hprompt, hwaiting, hstage, hcap.2.1, hresult, hunsent⟩

/-- a permit that was given back is neither free nor with a request under way until the next in line is looked at; that
one may be looked at after its patience is over, and is sent all the same; and there is not a client for every limit -/
theorem cap_not_exact :
    (¬∀ (config : Config) (st : St) (acts : List Act), new? config = some st →
      (run config.patience st acts).underWay.length + (run config.patience st acts).pool.free = max 1 config.limit) ∧
    (¬∀ (config : Config) (st : St) (acts before : List Act) (id since : Nat), new? config = some st →
      before <+: acts → (run config.patience st before).pool.stage? id = some (.waiting since) →
      since + config.patience < (run config.patience st acts).pool.now → .leave id ∉ acts →
      (∀ part, part <+: acts → (run config.patience st part).pool.now ≤ since + config.patience →
        (run config.patience st part).pool.stage? id ≠ some .holding) →
      id ∉ (run config.patience st acts).sent) ∧
    ¬∀ config : Config, ∃ st, new? config = some st := by
  let st : St := ⟨Permits.new 1, false, [], [], [], []⟩
  have hnew : new? ⟨1, 100⟩ = some st := rfl
  refine ⟨fun h => ?_, fun h => ?_, fun h => ?_⟩
  · have hsum := h _ st [.enter "http://node" [], .enter "http://node" [], .leave 1] hnew
    exact absurd hsum (by decide)
  · let acts : List Act := [.enter "http://node" [], .enter "http://node" [], .wait 200, .leave 1, .resume 2]
    have hnever : ∀ part ∈ acts.inits, (run 100 st part).pool.now ≤ 0 + 100 →
        (run 100 st part).pool.stage? 2 ≠ some .holding := by decide
    have hunsent := h _ st acts (acts.take 2) 2 0 hnew (List.take_prefix 2 acts) (by decide) (by decide) (by decide)
      fun part hpart => hnever part ((List.mem_inits part acts).2 hpart)
    exact absurd hunsent (by decide)
  · obtain ⟨st, hst⟩ := h ⟨2 ^ 61, 100⟩
    have hnone : new? ⟨2 ^ 61, 100⟩ = none := by decide
    exact absurd (hst.symm.trans hnone) (by simp)

end ChainBridge.Rpc.Client
