/-
Permits are neither lost nor made.

A request is at one stage at a time and goes only one way (`Transition`, one case for each thing that can happen to it),
and a step moves one request, or one request and the first in line. So the permits that are held and those that are free
come to the size of the pool, whatever happens (`Sound`).
-/
import Mathlib
import ChainBridge.Rpc.Permits

namespace ChainBridge.Rpc.Permits

/-- one if a permit is held at a stage -/
def held (s : Stage) : Nat := if s = .holding then 1 else 0

namespace St

variable {st : St} {id : Nat}

/-! ## Stages -/

theorem stage?_of_mem (h : (st.requests.map (·.id)).Nodup) {r : Entry} (hr : r ∈ st.requests) :
    st.stage? r.id = some r.stage := by
  have hfind : ∀ l : List Entry, (l.map (·.id)).Nodup → r ∈ l → l.find? (fun x => x.id == r.id) = some r := by
    intro l hl hm
    induction l with
    | nil => exact absurd hm List.not_mem_nil
    | cons x l ih =>
      rw [List.map_cons, List.nodup_cons] at hl
      rcases List.mem_cons.1 hm with rfl | hm
      · exact List.find?_cons_of_pos (beq_self_eq_true r.id)
      · have hne : x.id ≠ r.id := fun heq => hl.1 (heq ▸ List.mem_map_of_mem hm)
        rw [List.find?_cons_of_neg (by simpa using hne), ih hl.2 hm]
  rw [stage?, hfind st.requests h hr, Option.map_some]

theorem exists_of_stage? {s : Stage} (h : st.stage? id = some s) : ∃ r ∈ st.requests, r.id = id ∧ r.stage = s := by
  obtain ⟨r, hr, rfl⟩ := Option.map_eq_some_iff.1 h
  exact ⟨r, List.mem_of_find?_eq_some hr, by simpa using List.find?_some hr, rfl⟩

/-! ## Moving one request -/

@[simp]
theorem move_ids (st : St) (id : Nat) (s : Stage) : (st.move id s).requests.map (·.id) = st.requests.map (·.id) := by
  rw [move, List.map_map]
  refine List.map_congr_left fun r _ => ?_
  rw [Function.comp_apply]
  split_ifs <;> rfl

theorem nodup_move (h : (st.requests.map (·.id)).Nodup) (moved : Nat) (s : Stage) :
    ((st.move moved s).requests.map (·.id)).Nodup := by
  rwa [move_ids]

@[simp]
theorem move_free (st : St) (id : Nat) (s : Stage) : (st.move id s).free = st.free := rfl

theorem stage?_move (st : St) (id other : Nat) (s : Stage) :
    (st.move id s).stage? other = (st.stage? other).map fun old => if other = id then s else old := by
  have hid : ∀ r : Entry, (if r.id == id then { r with stage := s } else r).id = r.id := by
    intro r
    split_ifs <;> rfl
  rw [stage?, stage?, move, List.find?_map]
  simp only [Function.comp_def, hid, Option.map_map]
  cases hr : st.requests.find? fun r => r.id == other with
  | none => rfl
  | some r =>
    have hother : r.id = other := by simpa using List.find?_some hr
    simp only [Option.map_some, hother, beq_iff_eq]
    split_ifs <;> rfl

/-- moving a request changes how many permits are held by what it holds -/
theorem holding_move (hids : (st.requests.map (·.id)).Nodup) {old : Stage} (h : st.stage? id = some old) (s : Stage) :
    (st.move id s).holding + held old = st.holding + held s := by
  have hcount : ∀ l : List Entry, (l.map (·.id)).Nodup →
      (l.find? fun r => r.id == id).map (·.stage) = some old →
      (l.map fun r => if r.id == id then { r with stage := s } else r).countP (fun r => r.stage = .holding) +
        held old = l.countP (fun r => r.stage = .holding) + held s := by
    intro l hl hfind
    induction l with
    | nil => exact absurd hfind (by simp)
    | cons r l ih =>
      rw [List.map_cons, List.nodup_cons] at hl
      by_cases hr : r.id = id
      · -- no other request has this number
        have hrest : l.map (fun r => if r.id == id then { r with stage := s } else r) = l := by
          refine (List.map_congr_left fun x hx => ?_).trans (List.map_id l)
          have hne : x.id ≠ id := fun heq => hl.1 (hr.trans heq.symm ▸ List.mem_map_of_mem hx)
          rw [if_neg (by simpa using hne), id_eq]
        rw [List.find?_cons_of_pos (by simpa using hr), Option.map_some, Option.some.injEq] at hfind
        rw [List.map_cons, hrest, if_pos (by simpa using hr), List.countP_cons, List.countP_cons, ← hfind]
        simp only [held, decide_eq_true_eq]
        omega
      · rw [List.find?_cons_of_neg (by simpa using hr)] at hfind
        have := ih hl.2 hfind
        rw [List.map_cons, if_neg (by simpa using hr), List.countP_cons, List.countP_cons]
        omega
  have hmoved := hcount st.requests hids h
  rwa [List.countP_eq_length_filter, List.countP_eq_length_filter] at hmoved

/-! ## A permit comes back -/

theorem giveBack_cases (hids : (st.requests.map (·.id)).Nodup) :
    (∃ first since, st.stage? first = some (.waiting since) ∧ st.giveBack = st.move first .holding) ∨
      st.giveBack = { st with free := st.free + 1 } := by
  unfold giveBack
  split
  · rename_i r hr
    have hwaiting : isWaiting r = true := List.find?_some hr
    unfold isWaiting at hwaiting
    split at hwaiting
    · rename_i since hsince
      exact Or.inl ⟨r.id, since, hsince ▸ stage?_of_mem hids (List.mem_of_find?_eq_some hr), rfl⟩
    · exact absurd hwaiting (by decide)
  · exact Or.inr rfl

end St

/-! ## Steps -/

/-- how a request may go from one stage to the next when something happens -/
inductive Transition (patience : Nat) (st : St) (id : Nat) : Act → Option Stage → Option Stage → Prop where
  /-- it stays where it is -/
  | same (a : Act) (s : Option Stage) : Transition patience st id a s s
  /-- it comes in and there is a permit for it -/
  | served (h : st.nextId = id) : Transition patience st id .arrive none (some .holding)
  /-- it comes in and there is none -/
  | queued : Transition patience st id .arrive none (some (.waiting st.now))
  /-- it is given the permit of another -/
  | handed (a : Act) (since : Nat) : Transition patience st id a (some (.waiting since)) (some .holding)
  | ended : Transition patience st id (.finish id) (some .holding) (some .ended)
  | left {s : Stage} (h : s = .holding ∨ ∃ since, s = .waiting since) :
      Transition patience st id (.drop id) (some s) (some .dropped)
  | gaveUp {since : Nat} (h : since + patience ≤ st.now) :
      Transition patience st id (.expire id) (some (.waiting since)) (some .timedOut)

/-- what holds of a pool of the given size at all times -/
structure Sound (size : Nat) (st : St) : Prop where
  ids : (st.requests.map (·.id)).Nodup
  below : ∀ id ∈ st.requests.map (·.id), id < st.nextId
  balanced : st.holding + st.free = size

theorem sound_new (size : Nat) : Sound size (new size) := ⟨List.nodup_nil, by simp [new], Nat.zero_add size⟩

section

variable {size patience : Nat} {st : St}

theorem Sound.move (h : Sound size st) {id : Nat} {old s : Stage} (hold : st.stage? id = some old)
    (hheld : held old = held s) : Sound size (st.move id s) := by
  refine ⟨by rw [St.move_ids]; exact h.ids, by rw [St.move_ids]; exact h.below, ?_⟩
  have hmoved := St.holding_move h.ids hold s
  have hbalanced := h.balanced
  rw [St.move_free]
  omega

/-- a request gives up its permit, which goes to the first in line or becomes free -/
theorem Sound.release (h : Sound size st) {id : Nat} {s : Stage} (hold : st.stage? id = some .holding)
    (hs : held s = 0) : Sound size (st.move id s).giveBack := by
  have hids := St.nodup_move h.ids id s
  have hbelow : ∀ i ∈ (st.move id s).requests.map (·.id), i < (st.move id s).nextId := by
    rw [St.move_ids]
    exact h.below
  have hmoved := St.holding_move h.ids hold s
  have hbalanced := h.balanced
  have hone : held .holding = 1 := rfl
  rcases St.giveBack_cases hids with ⟨first, since, hfirst, heq⟩ | heq
  · have hgiven := St.holding_move hids hfirst .holding
    have hwaiting : held (.waiting since) = 0 := rfl
    rw [heq]
    refine ⟨by rw [St.move_ids]; exact hids, by rw [St.move_ids]; exact hbelow, ?_⟩
    rw [St.move_free, St.move_free]
    omega
  · rw [heq]
    refine ⟨hids, hbelow, ?_⟩
    show (st.move id s).holding + (st.free + 1) = size
    omega

theorem arrive_eq (st : St) : st.arrive = { st with
    free := st.free - 1
    requests := st.requests ++ [⟨st.nextId, if st.free = 0 then .waiting st.now else .holding⟩]
    nextId := st.nextId + 1 } := by
  unfold St.arrive
  by_cases hfree : st.free = 0
  · simp only [hfree, if_true, Nat.add_sub_cancel]
  · simp only [hfree, if_false, Nat.add_sub_cancel]

theorem Sound.arrive (h : Sound size st) : Sound size st.arrive := by
  have hbalanced := h.balanced
  rw [arrive_eq]
  refine ⟨?_, ?_, ?_⟩
  · rw [List.map_append, List.nodup_append]
    refine ⟨h.ids, List.nodup_singleton _, ?_⟩
    rintro id hid _ hnew rfl
    rw [List.map_singleton, List.mem_singleton] at hnew
    exact absurd (h.below id hid) (hnew ▸ Nat.lt_irrefl _)
  · intro id hid
    rw [List.map_append, List.mem_append, List.map_singleton, List.mem_singleton] at hid
    rcases hid with hid | rfl
    · exact Nat.lt_succ_of_lt (h.below id hid)
    · exact Nat.lt_succ_self _
  · simp only [St.holding, List.filter_append, List.length_append] at hbalanced ⊢
    by_cases hfree : st.free = 0
    · rw [if_pos hfree, List.filter_singleton]
      simp
      omega
    · rw [if_neg hfree, List.filter_singleton]
      simp
      omega

theorem Sound.step (h : Sound size st) (a : Act) : Sound size (step patience st a) := by
  cases a with
  | arrive => exact h.arrive
  | finish id =>
    simp only [Permits.step, St.finish]
    split
    · rename_i hstage
      exact h.release hstage rfl
    · exact h
  | drop id =>
    simp only [Permits.step, St.drop]
    split
    · rename_i hstage
      exact h.release hstage rfl
    · rename_i hstage
      exact h.move hstage rfl
    · exact h
  | expire id =>
    simp only [Permits.step, St.expire]
    split
    · rename_i hstage
      split_ifs
      · exact h.move hstage rfl
      · exact h
    · exact h
  | advance ms => exact ⟨h.ids, h.below, h.balanced⟩

theorem giveBack_now (st : St) : st.giveBack.now = st.now := by
  unfold St.giveBack
  split <;> rfl

/-- the time that passes with an act -/
def elapsed : Act → Nat
  | .advance ms => ms
  | _ => 0

theorem step_now (patience : Nat) (st : St) (a : Act) : (step patience st a).now = st.now + elapsed a := by
  cases a with
  | arrive =>
    rw [step, arrive_eq]
    rfl
  | finish id =>
    simp only [step, St.finish]
    split
    · exact giveBack_now _
    · rfl
  | drop id =>
    simp only [step, St.drop]
    split
    · exact giveBack_now _
    · rfl
    · rfl
  | expire id =>
    simp only [step, St.expire]
    split
    · split_ifs <;> rfl
    · rfl
  | advance ms => rfl

/-! ### What a step does to one request -/

theorem transition_giveBack (patience : Nat) (hids : (st.requests.map (·.id)).Nodup) (other : St) (a : Act) (id : Nat) :
    Transition patience other id a (st.stage? id) (st.giveBack.stage? id) := by
  rcases St.giveBack_cases hids with ⟨first, since, hfirst, heq⟩ | heq
  · rw [heq, St.stage?_move]
    by_cases hid : id = first
    · subst hid
      rw [hfirst, Option.map_some, if_pos rfl]
      exact .handed a since
    · simp only [hid, if_false, Option.map_id']
      exact .same a _
  · rw [heq]
    exact .same a _

/-- a request that goes away with its permit stays away when the permit is given to another -/
theorem stage?_release (h : Sound size st) {id : Nat} {s : Stage} (hold : st.stage? id = some .holding)
    (hs : s = .ended ∨ s = .dropped) : (st.move id s).giveBack.stage? id = some s := by
  have hmoved : (st.move id s).stage? id = some s := by
    rw [St.stage?_move, hold, Option.map_some, if_pos rfl]
  have hgiven := transition_giveBack 0 (St.nodup_move h.ids id s) st (.advance 0) id
  rw [hmoved] at hgiven
  generalize (st.move id s).giveBack.stage? id = new at hgiven
  rcases hs with rfl | rfl
  · cases hgiven with
    | same => rfl
  · cases hgiven with
    | same => rfl

theorem transition_release (h : Sound size st) (gone : Nat) (s : Stage) (a : Act) {id : Nat} (hid : id ≠ gone) :
    Transition patience st id a (st.stage? id) ((st.move gone s).giveBack.stage? id) := by
  have hstays : (st.move gone s).stage? id = st.stage? id := by
    rw [St.stage?_move]
    simp only [hid, if_false, Option.map_id']
  have hgiven := transition_giveBack patience (St.nodup_move h.ids gone s) st a id
  rwa [hstays] at hgiven

theorem transition_move {moved : Nat} {s : Stage} (a : Act) (id : Nat)
    (hmoved : Transition patience st moved a (st.stage? moved) ((st.stage? moved).map fun _ => s)) :
    Transition patience st id a (st.stage? id) ((st.move moved s).stage? id) := by
  rw [St.stage?_move]
  by_cases hid : id = moved
  · subst hid
    simpa only [if_true] using hmoved
  · simp only [hid, if_false, Option.map_id']
    exact .same a _

theorem transition_arrive (patience : Nat) (st : St) (id : Nat) :
    Transition patience st id .arrive (st.stage? id) (st.arrive.stage? id) := by
  have hfind : st.arrive.stage? id = (st.stage? id).or
      (if st.nextId = id then some (if st.free = 0 then .waiting st.now else .holding) else none) := by
    rw [arrive_eq]
    simp only [St.stage?, List.find?_append, Option.map_or, List.find?_singleton, beq_iff_eq]
    split_ifs <;> rfl
  rw [hfind]
  cases hold : st.stage? id with
  | some s => exact .same .arrive _
  | none =>
    rw [Option.none_or]
    split_ifs with hid
    · exact .queued
    · exact .served hid
    · exact .same .arrive none

/-- **Steps.** A step takes a request to its next stage, or leaves it where it is. -/
theorem step_transition (h : Sound size st) (a : Act) (id : Nat) :
    Transition patience st id a (st.stage? id) ((step patience st a).stage? id) := by
  cases a with
  | arrive => exact transition_arrive patience st id
  | finish gone =>
    simp only [step, St.finish]
    split
    · rename_i hold
      by_cases hid : id = gone
      · subst hid
        rw [hold, stage?_release h hold (Or.inl rfl)]
        exact .ended
      · exact transition_release h gone .ended _ hid
    · exact .same _ _
  | drop gone =>
    simp only [step, St.drop]
    split
    · rename_i hold
      by_cases hid : id = gone
      · subst hid
        rw [hold, stage?_release h hold (Or.inr rfl)]
        exact .left (Or.inl rfl)
      · exact transition_release h gone .dropped _ hid
    · rename_i since hold
      refine transition_move _ id ?_
      rw [hold, Option.map_some]
      exact .left (Or.inr ⟨since, rfl⟩)
    · exact .same _ _
  | expire late =>
    simp only [step, St.expire]
    split
    · rename_i since hold
      split_ifs with hdue
      · refine transition_move _ id ?_
        rw [hold, Option.map_some]
        exact .gaveUp hdue
      · exact .same _ _
    · exact .same _ _
  | advance ms => exact .same _ _

end

/-! ## The way of a request -/

/-- the stages behind the wait for a permit, except for giving up -/
def Stage.Past (s : Stage) : Prop := s = .holding ∨ s = .ended ∨ s = .dropped

section

variable {patience : Nat} {st : St} {id : Nat} {a : Act}

theorem Transition.past {s : Stage} {new : Option Stage} (h : Transition patience st id a (some s) new)
    (hs : s.Past) : ∃ t, new = some t ∧ t.Past := by
  cases h with
  | same => exact ⟨s, rfl, hs⟩
  | handed => exact ⟨_, rfl, Or.inl rfl⟩
  | ended => exact ⟨_, rfl, Or.inr (Or.inl rfl)⟩
  | left => exact ⟨_, rfl, Or.inr (Or.inr rfl)⟩
  | gaveUp => rcases hs with hs | hs | hs <;> exact absurd hs (by simp)

/-- a request that has ended or given up stays so -/
theorem Transition.final {s : Stage} {new : Option Stage} (h : Transition patience st id a (some s) new)
    (hs : s = .ended ∨ s = .timedOut) : new = some s := by
  cases h with
  | same => rfl
  | handed => rcases hs with hs | hs <;> exact absurd hs (by simp)
  | ended => rcases hs with hs | hs <;> exact absurd hs (by simp)
  | left h =>
    rcases h with rfl | ⟨since, rfl⟩
    · rcases hs with hs | hs <;> exact absurd hs (by simp)
    · rcases hs with hs | hs <;> exact absurd hs (by simp)
  | gaveUp => rcases hs with hs | hs <;> exact absurd hs (by simp)

/-- only giving up makes a request one that gave up -/
theorem Transition.timedOut {old : Option Stage} (h : Transition patience st id a old (some .timedOut)) :
    old = some .timedOut ∨ a = .expire id := by
  cases h with
  | same => exact Or.inl rfl
  | gaveUp => exact Or.inr rfl

end

theorem expire_eq {patience : Nat} {st : St} {id since : Nat} (h : st.stage? id = some (.waiting since))
    (hdue : since + patience ≤ st.now) : st.expire patience id = st.move id .timedOut := by
  simp only [St.expire, h, if_pos hdue]

theorem finish_stage {size : Nat} {st : St} (h : Sound size st) {id : Nat} (hold : st.stage? id = some .holding) :
    (st.finish id).stage? id = some .ended := by
  simp only [St.finish, hold]
  exact stage?_release h hold (Or.inl rfl)

end ChainBridge.Rpc.Permits
