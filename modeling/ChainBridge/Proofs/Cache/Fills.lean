/-
What an act does to the fills of a cache and to the markers of its keys.

`fetch_admits` says how a caller is admitted: it is served, joins the fill that marks its key, or leads a new one.
`step_fills` says all that any act can do: nothing, or start a fill under a key that was not marked, or move one fill to
its next stage. A key is marked when its fill starts and let go when the fill ends, and at no other time; a fill holds
its key from the one to the other (`Stage.holds`). A fill whose task was dropped in the queue never lets go.
-/
import Mathlib
import ChainBridge.Proofs.Cache.Books
import ChainBridge.Proofs.Cache.Runs

namespace ChainBridge.Cache

variable {K V E J : Type}

/-- whether the key of a fill stays marked -/
def Stage.holds : Stage V E → Bool
  | .queued | .running | .dropped => true
  | .ended _ | .told _ => false

/-- whether a fill waits to begin or is running -/
def Stage.isUnderWay : Stage V E → Bool
  | .queued | .running => true
  | _ => false

/-- what an act turns a fill in one stage into -/
inductive Turns : Act K V E J → Nat → Stage V E → Stage V E → Prop where
  | begin (id : Nat) : Turns (.begin id) id .queued .running
  | finish (id : Nat) (outcome : Except E V) : Turns (.finish id outcome) id .running (.ended (some outcome))
  | crash (id : Nat) : Turns (.crash id) id .running (.ended none)
  | tell (id : Nat) (outcome : Option (Except E V)) : Turns (.tell id) id (.ended outcome) (.told outcome)
  | drop (id : Nat) : Turns (.discard id) id .queued .dropped
  | cut (id : Nat) : Turns (.discard id) id .running (.ended none)

/-! ## Markers by key -/

namespace Store

/-- the marked keys, and the fills that they are marked with -/
def tags (s : Store K V) : List (K × Nat) := s.pending.map fun m => (m.key, m.fill)

theorem Lookup.ne_hit_of_miss {found : Lookup V} (h : found = .miss) (v : V) : found ≠ .hit v := by
  rw [h]
  simp

variable [DecidableEq K] {s : Store K V}

/-- the fill that a key is marked with -/
def filling? (s : Store K V) (key : K) : Option Nat := (s.marker? key).map (·.fill)

theorem isPending_eq (s : Store K V) (key : K) : s.isPending key = (s.filling? key).isSome := by
  rw [isPending, filling?, Option.isSome_map]

theorem filling?_eq_some {key : K} {fill : Nat} (h : s.filling? key = some fill) : (key, fill) ∈ s.tags := by
  obtain ⟨m, hf, rfl⟩ := Option.map_eq_some_iff.1 h
  have hk : m.key = key := by simpa using List.find?_some hf
  exact List.mem_map.2 ⟨m, List.mem_of_find?_eq_some hf, by rw [hk]⟩

theorem filling?_of_mem (hk : (s.tags.map Prod.fst).Nodup) {key : K} {fill : Nat} (h : (key, fill) ∈ s.tags) :
    s.filling? key = some fill := by
  cases hf : s.filling? key with
  | none =>
    obtain ⟨m, hm, he⟩ := List.mem_map.1 h
    have hnone : s.pending.find? (fun m => decide (m.key = key)) = none := Option.map_eq_none_iff.1 hf
    exact absurd (Prod.mk.inj he).1 (by simpa using List.find?_eq_none.1 hnone m hm)
  | some fill' =>
    have he := List.inj_on_of_nodup_map hk (filling?_eq_some hf) h rfl
    rw [(Prod.mk.inj he).2]

theorem marker?_eq_none_iff {key : K} : s.marker? key = none ↔ s.filling? key = none :=
  Option.map_eq_none_iff.symm

/-- letting go of a key that is marked with the fill takes its marker out -/
theorem release_pending {key : K} {fill : Nat} (h : s.filling? key = some fill) :
    (s.release key fill).pending = s.pending.filter fun m => decide (m.key ≠ key) := by
  obtain ⟨m, hf, rfl⟩ := Option.map_eq_some_iff.1 h
  simp only [release, hf, if_true]

theorem tags_release {key : K} {fill : Nat} (h : s.filling? key = some fill) :
    (s.release key fill).tags = s.tags.filter fun p => decide (p.1 ≠ key) := by
  rw [tags, release_pending h, tags, List.filter_map]
  rfl

theorem filling?_release {key : K} {fill : Nat} (h : s.filling? key = some fill) :
    (s.release key fill).filling? key = none := by
  simp only [filling?, marker?, release_pending h, Option.map_eq_none_iff, List.find?_eq_none]
  intro m hm
  have hne := (List.mem_filter.1 hm).2
  simpa using hne

theorem release_nextFill (s : Store K V) (key : K) (fill : Nat) : (s.release key fill).nextFill = s.nextFill := by
  unfold release
  split
  · rfl
  · split_ifs <;> rfl

theorem filling?_congr {s' : Store K V} (h : s'.marks = s.marks) (key : K) : s'.filling? key = s.filling? key := by
  have hpending : s'.pending = s.pending := (Prod.mk.inj h).1
  simp only [filling?, marker?, hpending]

theorem ask_hit {key : K} {now : Nat} {v : V} (h : (s.lookup key now).2 = .hit v) :
    (s.ask key now).2.1 = .hit v ∧ (s.ask key now).1.marks = s.marks := by
  have hmarks := lookup_marks s key now
  unfold ask
  split
  · rename_i s' v' he
    rw [he] at hmarks h
    exact ⟨congrArg Admission.hit (Lookup.hit.inj h), hmarks⟩
  · rename_i s' found hno he
    rw [he] at h
    exact absurd h (hno v)

theorem ask_join {key : K} {now fill : Nat} (hno : ∀ v, (s.lookup key now).2 ≠ .hit v)
    (h : s.filling? key = some fill) :
    (s.ask key now).2.1 = .join fill ∧ (s.ask key now).1.marks = s.marks := by
  have hmarks := lookup_marks s key now
  unfold ask
  split
  · rename_i s' v he
    exact absurd (congrArg Prod.snd he) (hno v)
  · rename_i s' found _ he
    rw [he] at hmarks
    have hm : s'.filling? key = some fill := (filling?_congr hmarks key).trans h
    obtain ⟨m, hf, rfl⟩ := Option.map_eq_some_iff.1 hm
    simp only [hf]
    exact ⟨trivial, hmarks⟩

theorem ask_lead {key : K} {now : Nat} (hno : ∀ v, (s.lookup key now).2 ≠ .hit v) (h : s.filling? key = none) :
    (s.ask key now).2.1 = .lead (s.nextFill + 1) ∧
    (s.ask key now).1.marks = (s.pending ++ [⟨key, s.nextFill + 1, now⟩], s.nextFill + 1) := by
  have hmarks := lookup_marks s key now
  unfold ask
  split
  · rename_i s' v he
    exact absurd (congrArg Prod.snd he) (hno v)
  · rename_i s' found _ he
    rw [he] at hmarks
    have hpending : s'.pending = s.pending := (Prod.mk.inj hmarks).1
    have hnext : s'.nextFill = s.nextFill := (Prod.mk.inj hmarks).2
    have hm : s'.marker? key = none := marker?_eq_none_iff.2 ((filling?_congr hmarks key).trans h)
    simp only [hm, marks, hpending, hnext]
    exact ⟨trivial, trivial⟩

/-- nobody joins a fill that the key is not marked with -/
theorem ask_ne_join {key : K} {fill : Nat} (h : s.filling? key ≠ some fill) (now : Nat) :
    (s.ask key now).2.1 ≠ .join fill := by
  by_cases hhit : ∃ v, (s.lookup key now).2 = .hit v
  · obtain ⟨v, hv⟩ := hhit
    rw [(ask_hit hv).1]
    simp
  · have hno : ∀ v, (s.lookup key now).2 ≠ .hit v := fun v hv => hhit ⟨v, hv⟩
    cases hf : s.filling? key with
    | none =>
      rw [(ask_lead hno hf).1]
      simp
    | some fill' =>
      rw [(ask_join hno hf).1]
      intro he
      exact h (hf.trans (congrArg some (Admission.join.inj he)))

end Store

/-! ## What an act does to fills -/

theorem fill?_some {st : St K V E J} {id : Nat} {f : Fill K V E J} (h : st.fill? id = some f) :
    f ∈ st.fills ∧ f.id = id :=
  ⟨List.mem_of_find?_eq_some h, by simpa using List.find?_some h⟩

theorem fill?_of_mem {st : St K V E J} (hids : (st.fills.map (·.id)).Nodup) {f : Fill K V E J} (hf : f ∈ st.fills) :
    st.fill? f.id = some f := by
  cases h : st.fill? f.id with
  | none => exact absurd (List.find?_eq_none.1 h f hf) (by simp)
  | some g =>
    obtain ⟨hg, hid⟩ := fill?_some h
    rw [List.inj_on_of_nodup_map hids hg hf hid]

variable [DecidableEq K]

/-- what a caller that asks for a key is told, and what fills and markers there are then -/
inductive Admits (st : St K V E J) (key : K) (ttl : Option Nat) (job : J) :
    Ticket V → List (Fill K V E J) → List (Marker K) × Nat → Prop where
  | hit (v : V) : (st.store.lookup key st.now).2 = .hit v → Admits st key ttl job (.served v) st.fills st.store.marks
  | join (fill : Nat) : (∀ v, (st.store.lookup key st.now).2 ≠ .hit v) → st.store.filling? key = some fill →
      Admits st key ttl job (.awaiting fill) st.fills st.store.marks
  | lead : (∀ v, (st.store.lookup key st.now).2 ≠ .hit v) → st.store.filling? key = none →
      Admits st key ttl job (.awaiting (st.store.nextFill + 1))
        (st.fills ++ [⟨st.store.nextFill + 1, key, ttl, job, .queued⟩])
        (st.store.pending ++ [⟨key, st.store.nextFill + 1, st.now⟩], st.store.nextFill + 1)

theorem fetch_admits (c : Setup) (st : St K V E J) (key : K) (ttl : Option Nat) (job : J) :
    ∃ ticket, Admits st key ttl job ticket (st.fetch c key ttl job).1.fills (st.fetch c key ttl job).1.store.marks ∧
      (st.fetch c key ttl job).1.callers = st.callers ++ [⟨st.nextCaller, key, ticket⟩] := by
  by_cases hhit : ∃ v, (st.store.lookup key st.now).2 = .hit v
  · obtain ⟨v, hv⟩ := hhit
    obtain ⟨ha, hmarks⟩ := Store.ask_hit hv
    refine ⟨.served v, ?_, ?_⟩
    · have h : Admits st key ttl job (.served v) st.fills st.store.marks := .hit v hv
      simp only [St.fetch, ha]
      rw [hmarks]
      exact h
    · simp only [St.fetch, ha]
  · have hno : ∀ v, (st.store.lookup key st.now).2 ≠ .hit v := fun v hv => hhit ⟨v, hv⟩
    cases hf : st.store.filling? key with
    | some fill =>
      obtain ⟨ha, hmarks⟩ := Store.ask_join hno hf
      refine ⟨.awaiting fill, ?_, ?_⟩
      · simp only [St.fetch, ha]
        rw [hmarks]
        exact .join fill hno hf
      · simp only [St.fetch, ha]
    | none =>
      obtain ⟨ha, hmarks⟩ := Store.ask_lead hno hf
      refine ⟨.awaiting (st.store.nextFill + 1), ?_, ?_⟩
      · simp only [St.fetch, ha]
        rw [hmarks]
        exact .lead hno hf
      · simp only [St.fetch, ha]

/-- all that an act can do to the fills and the markers -/
inductive FillStep (st st' : St K V E J) (act : Act K V E J) : Prop where
  | quiet : st'.fills = st.fills → st'.store.marks = st.store.marks → FillStep st st' act
  | started (key : K) (ttl : Option Nat) (job : J) : act = .fetch key ttl job → st.store.filling? key = none →
      st'.fills = st.fills ++ [⟨st.store.nextFill + 1, key, ttl, job, .queued⟩] →
      st'.store.marks = (st.store.pending ++ [⟨key, st.store.nextFill + 1, st.now⟩], st.store.nextFill + 1) →
      FillStep st st' act
  | moved (f : Fill K V E J) (stage : Stage V E) : st.fill? f.id = some f → Turns act f.id f.stage stage →
      stage.holds = f.stage.holds → st'.fills = (st.move f.id stage).fills → st'.store.marks = st.store.marks →
      FillStep st st' act
  | ended (f : Fill K V E J) (outcome : Option (Except E V)) : st.fill? f.id = some f → f.stage = .running →
      Turns act f.id .running (.ended outcome) → st'.fills = (st.move f.id (.ended outcome)).fills →
      st'.store.marks = (st.store.release f.key f.id).marks → FillStep st st' act

theorem crash_fills (st : St K V E J) (id : Nat) {act : Act K V E J}
    (h : Turns act id (.running : Stage V E) (.ended none)) : FillStep st (st.crash id) act := by
  simp only [St.crash]
  split
  · rename_i i key ttl job hf
    obtain ⟨-, rfl⟩ := fill?_some hf
    exact .ended ⟨i, key, ttl, job, .running⟩ none hf rfl h rfl rfl
  · exact .quiet rfl rfl

variable [Footprint K] [Footprint V]

theorem set_store (c : Setup) (st : St K V E J) (key : K) (value : V) (ttl : Option Nat) :
    (st.set c key value ttl).1.store =
      (st.store.insert c.policy.maxSize st.now key value (ttl.getD c.policy.defaultTtl)).1 := by
  simp only [St.set]
  split <;> rename_i he <;> rw [he]

theorem set_marks (c : Setup) (st : St K V E J) (key : K) (value : V) (ttl : Option Nat) :
    (st.set c key value ttl).1.store.marks = st.store.marks := by
  rw [set_store]
  exact Store.insert_marks st.store c.policy.maxSize st.now key value _

theorem set_fills (c : Setup) (st : St K V E J) (key : K) (value : V) (ttl : Option Nat) :
    (st.set c key value ttl).1.fills = st.fills := by
  simp only [St.set]
  split <;> rfl

theorem finish_fills (c : Setup) (st : St K V E J) (id : Nat) (outcome : Except E V) :
    FillStep st (st.finish c id outcome) (.finish id outcome) := by
  simp only [St.finish]
  split
  · rename_i i key ttl job hf
    obtain ⟨-, rfl⟩ := fill?_some hf
    refine .ended ⟨i, key, ttl, job, .running⟩ (some outcome) hf rfl (.finish i outcome) ?_ ?_
    · cases outcome with
      | ok v => simp only [St.move, set_fills]
      | error e => rfl
    · cases outcome with
      | ok v => exact set_marks c _ key v ttl
      | error e => rfl
  · exact .quiet rfl rfl

theorem step_fills (c : Setup) (st : St K V E J) (act : Act K V E J) : FillStep st (step c st act) act := by
  cases act with
  | get key =>
    have hm := Store.lookup_marks st.store key st.now
    simp only [step, St.get]
    split
    · rename_i s' v he
      rw [he] at hm
      exact .quiet rfl hm
    · rename_i s' found _ he
      rw [he] at hm
      exact .quiet rfl hm
  | set key value ttl => exact .quiet (set_fills c st key value ttl) (set_marks c st key value ttl)
  | squeeze key value => exact .quiet rfl (Store.makeRoom_marks st.store _ _ _ key)
  | invalidate key => exact .quiet rfl (Store.erase_marks st.store key)
  | clear => exact .quiet rfl rfl
  | purge => exact .quiet rfl (Store.purge_marks st.store st.now)
  | advance ms => exact .quiet rfl rfl
  | fetch key ttl job =>
    obtain ⟨ticket, ha, -⟩ := fetch_admits c st key ttl job
    simp only [step]
    generalize (st.fetch c key ttl job).1 = st' at ha ⊢
    generalize hfills : st'.fills = fills at ha
    generalize hmarks : st'.store.marks = marks at ha
    cases ha with
    | hit v _ => exact .quiet hfills hmarks
    | join fill _ _ => exact .quiet hfills hmarks
    | lead _ hf => exact .started key ttl job rfl hf hfills hmarks
  | leave caller => exact .quiet rfl rfl
  | resume caller =>
    simp only [step, St.resume]
    split <;> exact .quiet rfl rfl
  | begin fill =>
    simp only [step, St.begin]
    split
    · rename_i i key ttl job hf
      obtain ⟨-, rfl⟩ := fill?_some hf
      exact .moved ⟨i, key, ttl, job, .queued⟩ .running hf (.begin i) rfl rfl rfl
    · exact .quiet rfl rfl
  | finish fill outcome => exact finish_fills c st fill outcome
  | crash fill => exact crash_fills st fill (.crash fill)
  | tell fill =>
    simp only [step, St.tell]
    split
    · rename_i i key ttl job outcome hf
      obtain ⟨-, rfl⟩ := fill?_some hf
      exact .moved ⟨i, key, ttl, job, .ended outcome⟩ (.told outcome) hf (.tell i outcome) rfl rfl rfl
    · exact .quiet rfl rfl
  | discard fill =>
    simp only [step, St.discard]
    split
    · rename_i i key ttl job hf
      obtain ⟨-, rfl⟩ := fill?_some hf
      exact .moved ⟨i, key, ttl, job, .queued⟩ .dropped hf (.drop i) rfl rfl rfl
    · exact crash_fills st fill (.cut fill)
    · exact .quiet rfl rfl

/-- fills are never lost, and keep their numbers and keys -/
theorem step_keeps (c : Setup) (st : St K V E J) (act : Act K V E J) {f : Fill K V E J} (hf : f ∈ st.fills) :
    ∃ g ∈ (step c st act).fills, g.id = f.id ∧ g.key = f.key := by
  have hmove : ∀ (id : Nat) (stage : Stage V E), ∃ g ∈ (st.move id stage).fills, g.id = f.id ∧ g.key = f.key := by
    intro id stage
    refine ⟨_, List.mem_map_of_mem hf, ?_⟩
    split <;> exact ⟨rfl, rfl⟩
  cases step_fills c st act with
  | quiet hfills _ =>
    rw [hfills]
    exact ⟨f, hf, rfl, rfl⟩
  | started key ttl job _ _ hfills _ =>
    rw [hfills]
    exact ⟨f, List.mem_append_left _ hf, rfl, rfl⟩
  | moved g stage _ _ _ hfills _ =>
    rw [hfills]
    exact hmove g.id stage
  | ended g outcome _ _ _ hfills _ =>
    rw [hfills]
    exact hmove g.id (.ended outcome)

end ChainBridge.Cache
