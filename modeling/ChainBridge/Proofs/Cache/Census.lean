/-
How many fills of a cache have come how far.

Fills are never forgotten, so what became of them can be counted. Each of them waits, has begun or was dropped in the
queue; each holds its key, was answered or has crashed (`census_waiting`, `census_holding`). A fill comes to any of
these by the one act that turns it there (`step_reached`, `Turns.reached`), and its number and its job never change
(`step_jobs`). Of all acts only a `get` and a `fetch` count a lookup, and a `fetch` counts it as what it tells the
caller (`fetch_lookups`); it adds a fill if and only if it tells the caller to lead one (`fetch_jobs`).
-/
import Mathlib
import ChainBridge.Proofs.Cache.Counters
import ChainBridge.Proofs.Cache.Fates
import ChainBridge.Proofs.Cache.SingleFlight

namespace ChainBridge.Cache

variable {K V E J : Type}

/-! ## Stages -/

namespace Stage

def isQueued : Stage V E → Bool
  | .queued => true
  | _ => false

def isDropped : Stage V E → Bool
  | .dropped => true
  | _ => false

/-- whether the job of a fill was begun -/
def hasBegun : Stage V E → Bool
  | .running | .ended _ | .told _ => true
  | _ => false

/-- whether a fill ended with an outcome -/
def isAnswered : Stage V E → Bool
  | .ended (some _) | .told (some _) => true
  | _ => false

/-- whether a fill ended with nothing -/
def hasCrashed : Stage V E → Bool
  | .ended none | .told none => true
  | _ => false

end Stage

/-- the number of fills that have come so far -/
def St.census (st : St K V E J) (φ : Stage V E → Bool) : Nat := st.fills.countP fun f => φ f.stage

/-- whether a fill has come so far -/
def St.Reached (st : St K V E J) (φ : Stage V E → Bool) (fill : Nat) : Prop :=
  ∃ f, st.fill? fill = some f ∧ φ f.stage = true

section

variable {st : St K V E J} {φ : Stage V E → Bool}

/-- every fill is in one of three kinds of stages -/
theorem census_partition (st : St K V E J) {φ ψ χ : Stage V E → Bool}
    (h : ∀ stage, (if φ stage then 1 else 0) + (if ψ stage then 1 else 0) + (if χ stage then 1 else 0) = 1) :
    st.census φ + st.census ψ + st.census χ = st.fills.length := by
  simp only [St.census]
  induction st.fills with
  | nil => rfl
  | cons f rest ih =>
    have hf := h f.stage
    simp only [List.countP_cons, List.length_cons]
    omega

/-- a fill waits, has begun or was dropped in the queue -/
theorem census_waiting (st : St K V E J) :
    st.census Stage.isQueued + st.census Stage.hasBegun + st.census Stage.isDropped = st.fills.length :=
  census_partition st fun stage => by cases stage <;> rfl

/-- a fill holds its key, was answered or has crashed -/
theorem census_holding (st : St K V E J) :
    st.census Stage.holds + st.census Stage.isAnswered + st.census Stage.hasCrashed = st.fills.length :=
  census_partition st fun stage => by
    cases stage with
    | ended outcome => cases outcome <;> rfl
    | told outcome => cases outcome <;> rfl
    | _ => rfl

theorem length_queued (st : St K V E J) : st.queued.length = st.census Stage.isQueued := by
  rw [St.queued, List.length_filterMap_eq_countP, St.census]
  refine List.countP_congr fun f _ => ?_
  cases f.stage <;> simp [Stage.isQueued]

theorem Single.pending_length (h : Single st) : st.store.pending.length = st.census Stage.holds := by
  have hlength : st.store.tags.length = st.store.pending.length := List.length_map _
  rw [← hlength, h.markers, St.holders, List.length_filterMap_eq_countP, St.census]
  refine List.countP_congr fun f _ => ?_
  cases f.stage.holds <;> simp

/-- fills are counted by their numbers -/
theorem Single.census_eq (h : Single st) {fills : List Nat} (hfills : fills.Nodup)
    (hreached : ∀ fill, fill ∈ fills ↔ st.Reached φ fill) : fills.length = st.census φ := by
  have hnodup : ((st.fills.filter fun f => φ f.stage).map (·.id)).Nodup := h.ids.sublist (List.filter_sublist.map _)
  have hperm : fills.Perm ((st.fills.filter fun f => φ f.stage).map (·.id)) := by
    refine (List.perm_ext_iff_of_nodup hfills hnodup).2 fun fill => (hreached fill).trans ?_
    constructor
    · rintro ⟨f, hf, hφ⟩
      obtain ⟨hmem, rfl⟩ := fill?_some hf
      exact List.mem_map_of_mem (List.mem_filter.2 ⟨hmem, hφ⟩)
    · intro hmem
      obtain ⟨f, hf, rfl⟩ := List.mem_map.1 hmem
      obtain ⟨hf, hφ⟩ := List.mem_filter.1 hf
      exact ⟨f, fill?_of_mem h.ids hf, hφ⟩
  rw [hperm.length_eq, List.length_map, St.census, List.countP_eq_length_filter]

end

/-! ## Admissions -/

namespace Store.Admission

def isHit : Admission V → Bool
  | .hit _ => true
  | _ => false

def isJoin : Admission V → Bool
  | .join _ => true
  | _ => false

/-- the fill that a caller is told to lead -/
def lead? : Admission V → Option Nat
  | .lead fill => some fill
  | _ => none

end Store.Admission

/-- the lookups that were counted -/
def Counters.lookups (c : Counters) : Nat × Nat × Nat := (c.hits, c.coalesced, c.misses)

/-- the fills and their jobs -/
def St.jobs (st : St K V E J) : List (Nat × J) := st.fills.map fun f => (f.id, f.job)

theorem jobs_move (st : St K V E J) (id : Nat) (stage : Stage V E) : (st.move id stage).jobs = st.jobs := by
  simp only [St.jobs, St.move, List.map_map]
  refine List.map_congr_left fun f _ => ?_
  simp only [Function.comp]
  split <;> rfl

variable [DecidableEq K]

/-- a lookup is counted as what the caller is told -/
theorem fetch_lookups (c : Setup) (st : St K V E J) (key : K) (ttl : Option Nat) (job : J) :
    let admission := (st.store.ask key st.now).2.1
    let counters := st.store.counters
    (st.fetch c key ttl job).1.store.counters.lookups =
      (counters.hits + [admission].countP (·.isHit), counters.coalesced + [admission].countP (·.isJoin),
        counters.misses + [admission].countP (·.lead?.isSome)) := by
  have hstore : (st.fetch c key ttl job).1.store = (st.store.ask key st.now).1 := by
    simp only [St.fetch]
    split <;> rfl
  simp only [hstore, Store.ask_counters]
  by_cases hhit : ∃ v, (st.store.lookup key st.now).2 = .hit v
  · obtain ⟨v, hv⟩ := hhit
    rw [(Store.ask_hit hv).1, hv]
    rfl
  · have hno : ∀ v, (st.store.lookup key st.now).2 ≠ .hit v := fun v hv => hhit ⟨v, hv⟩
    cases hf : st.store.filling? key with
    | some fill =>
      rw [(Store.ask_join hno hf).1, Store.isPending_eq, hf]
      cases hl : (st.store.lookup key st.now).2 with
      | hit v => exact absurd hl (hno v)
      | _ => rfl
    | none =>
      rw [(Store.ask_lead hno hf).1, Store.isPending_eq, hf]
      cases hl : (st.store.lookup key st.now).2 with
      | hit v => exact absurd hl (hno v)
      | _ => rfl

/-- a caller adds a fill with its job if it is told to lead one -/
theorem fetch_jobs (c : Setup) (st : St K V E J) (key : K) (ttl : Option Nat) (job : J) :
    (st.fetch c key ttl job).1.jobs = st.jobs ++ ((st.store.ask key st.now).2.1.lead?.map (·, job)).toList := by
  simp only [St.fetch]
  split <;> rename_i h <;> simp [h, St.jobs, Store.Admission.lead?]

variable [Footprint K] [Footprint V]

/-- no other act counts a lookup -/
theorem Act.tally_lookups (c : Setup) (st : St K V E J) {act : Act K V E J} (hget : ∀ key, act ≠ .get key)
    (hfetch : ∀ key ttl job, act ≠ .fetch key ttl job) : (act.tally c st).lookups = (0, 0, 0) := by
  have hoffer : ∀ o : Option (Offer K V), (((o.map (Offer.tally c st.now)).getD .zero).lookups = (0, 0, 0)) := by
    intro o
    cases o with
    | none => rfl
    | some o =>
      simp only [Option.map_some, Option.getD_some, Offer.tally]
      cases o.room? c <;> rfl
  cases act with
  | get key => exact absurd rfl (hget key)
  | fetch key ttl job => exact absurd rfl (hfetch key ttl job)
  | purge => rfl
  | _ => exact hoffer _

theorem step_lookups (c : Setup) {st : St K V E J} (hs : st.store.Wf) {act : Act K V E J}
    (hget : ∀ key, act ≠ .get key) (hfetch : ∀ key ttl job, act ≠ .fetch key ttl job) :
    (step c st act).store.counters.lookups = st.store.counters.lookups := by
  obtain ⟨hhits, hrest⟩ := Prod.mk.inj (Act.tally_lookups c st hget hfetch)
  obtain ⟨hcoalesced, hmisses⟩ := Prod.mk.inj hrest
  rw [step_counters c hs act]
  simp only [Counters.lookups, Counters.plus, hhits, hcoalesced, hmisses, Nat.add_zero]

theorem step_jobs (c : Setup) (st : St K V E J) {act : Act K V E J} (hfetch : ∀ key ttl job, act ≠ .fetch key ttl job) :
    (step c st act).jobs = st.jobs := by
  have hcongr : ∀ {st' : St K V E J}, st'.fills = st.fills → st'.jobs = st.jobs := fun h => by rw [St.jobs, h]; rfl
  have hmove : ∀ {st' : St K V E J} (id : Nat) (stage : Stage V E), st'.fills = (st.move id stage).fills →
      st'.jobs = st.jobs := by
    intro st' id stage h
    rw [← jobs_move st id stage, St.jobs, h]
    rfl
  cases step_fills c st act with
  | quiet hfills _ => exact hcongr hfills
  | started key ttl job hact _ _ _ => exact absurd hact (hfetch key ttl job)
  | moved f stage _ _ _ hfills _ => exact hmove f.id stage hfills
  | ended f outcome _ _ _ hfills _ => exact hmove f.id _ hfills

/-! ## Acts that turn a fill -/

section

variable {st : St K V E J} {act : Act K V E J} {φ : Stage V E → Bool} {fill : Nat}

/-- an act that turns no fill there leaves them as far as they had come -/
theorem step_reached (c : Setup) (hqueued : φ .queued = false)
    (hturn : ∀ before after : Stage V E, Turns act fill before after → φ after = φ before) :
    (step c st act).Reached φ fill ↔ st.Reached φ fill := by
  cases step_fate c st act fill with
  | same he => simp only [St.Reached, he]
  | started f hn he hq => simp [St.Reached, hn, he, hq, hqueued]
  | turned f stage hf hturned he => simp [St.Reached, hf, he, hturn _ _ hturned]

omit [DecidableEq K] [Footprint K] [Footprint V] in
theorem Turns.fill_eq {id : Nat} {before after before' after' : Stage V E} (h : Turns act id before after)
    (h' : Turns act fill before' after') : fill = id := by
  cases h <;> cases h' <;> rfl

/-- an act that turns a fill there adds it to those that had come so far -/
theorem Turns.reached (c : Setup) {id : Nat} {f : Fill K V E J} {stage : Stage V E}
    (hturn : Turns act id f.stage stage) (hf : st.fill? id = some f) (hqueued : φ .queued = false)
    (hφ : φ stage = true) (fill : Nat) : (step c st act).Reached φ fill ↔ st.Reached φ fill ∨ fill = id := by
  by_cases hid : fill = id
  · subst hid
    have htaken := hturn.taken c hf
    simp [St.Reached, htaken, hφ]
  · have hother : (step c st act).Reached φ fill ↔ st.Reached φ fill :=
      step_reached c hqueued fun before after h => absurd (hturn.fill_eq h) hid
    simp only [hother, hid, or_false]

end

end ChainBridge.Cache
