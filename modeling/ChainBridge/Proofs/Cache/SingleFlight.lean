/-
Each key has at most one fill at a time, and its marker says which.

`Single` says that the markers are just the keys that are held, and by which fills. It holds throughout every run, also
when tasks are dropped, since it counts a fill that was dropped in the queue among those that hold their keys.
- `single_flight`: in a run in which no task is dropped, the marked keys are those with a fill under way, of which each
  has at most one; a caller starts a fill if and only if none is under way, and a fill always finds its own marker.
-/
import Mathlib
import ChainBridge.Proofs.Cache.Runs
import ChainBridge.Proofs.Cache.Fills
import ChainBridge.Proofs.Cache.Fates

namespace ChainBridge.Cache

variable {K V E J : Type}

namespace St

/-- the keys that fills hold, and by which fill -/
def holders (st : St K V E J) : List (K × Nat) :=
  st.fills.filterMap fun f => if f.stage.holds then some (f.key, f.id) else none

/-- whether a fill of the key is under way -/
def isFilling [DecidableEq K] (st : St K V E J) (key : K) : Bool :=
  st.fills.any fun f => decide (f.key = key) && f.stage.isUnderWay

variable {st : St K V E J}

theorem mem_holders {key : K} {id : Nat} :
    (key, id) ∈ st.holders ↔ ∃ f ∈ st.fills, f.stage.holds = true ∧ f.key = key ∧ f.id = id := by
  simp only [holders, List.mem_filterMap, Option.ite_none_right_eq_some, Option.some.injEq, Prod.mk.injEq]

theorem holders_of_mem {f : Fill K V E J} (hf : f ∈ st.fills) (h : f.stage.holds = true) : (f.key, f.id) ∈ st.holders :=
  mem_holders.2 ⟨f, hf, h, rfl, rfl⟩

theorem move_ids (st : St K V E J) (id : Nat) (stage : Stage V E) :
    (st.move id stage).fills.map (·.id) = st.fills.map (·.id) := by
  simp only [move, List.map_map]
  refine List.map_congr_left fun f _ => ?_
  simp only [Function.comp]
  split <;> rfl

/-- a fill that holds its key as before leaves the holders as they were -/
theorem holders_move {id : Nat} {stage : Stage V E} (h : ∀ f ∈ st.fills, f.id = id → stage.holds = f.stage.holds) :
    (st.move id stage).holders = st.holders := by
  simp only [holders, move, List.filterMap_map]
  refine List.filterMap_congr fun f hf => ?_
  simp only [Function.comp]
  split
  · rename_i hid
    rw [h f hf (by simpa using hid)]
  · rfl

/-- a fill that lets go of its key is gone from the holders -/
theorem holders_move_ended (st : St K V E J) (id : Nat) (outcome : Option (Except E V)) :
    (st.move id (.ended outcome)).holders = st.holders.filter fun h => decide (h.2 ≠ id) := by
  simp only [holders, move, List.filterMap_map, List.filter_filterMap]
  refine List.filterMap_congr fun f _ => ?_
  by_cases hid : f.id = id
  · cases hs : f.stage.holds <;> simp [hid, Stage.holds, Option.filter]
  · cases hs : f.stage.holds <;> simp [hid, hs, Option.filter]

end St

/-- the markers are the keys that are held, each by one fill -/
structure Single (st : St K V E J) : Prop where
  ids : (st.fills.map (·.id)).Nodup
  below : ∀ id ∈ st.fills.map (·.id), id ≤ st.store.nextFill
  keys : (st.holders.map Prod.fst).Nodup
  markers : st.store.tags = st.holders

namespace Single

variable {st : St K V E J}

/-- two fills that hold one key are the same -/
theorem eq_of_key (h : Single st) {f g : Fill K V E J} (hf : f ∈ st.fills) (hg : g ∈ st.fills)
    (hfh : f.stage.holds = true) (hgh : g.stage.holds = true) (hk : f.key = g.key) : f = g := by
  have he : (f.key, f.id) = (g.key, g.id) :=
    List.inj_on_of_nodup_map h.keys (St.holders_of_mem hf hfh) (St.holders_of_mem hg hgh) hk
  exact List.inj_on_of_nodup_map h.ids hf hg (Prod.mk.inj he).2

theorem eq_of_id (h : Single st) {f g : Fill K V E J} (hf : f ∈ st.fills) (hg : g ∈ st.fills) (hid : f.id = g.id) :
    f = g :=
  List.inj_on_of_nodup_map h.ids hf hg hid

/-- of the pairs of held keys and their fills, that of a fill is told by the key as well as by the fill -/
theorem key_iff (h : Single st) {f : Fill K V E J} (hf : f ∈ st.fills) (hh : f.stage.holds = true) {p : K × Nat}
    (hp : p ∈ st.holders) : p.1 = f.key ↔ p.2 = f.id := by
  obtain ⟨g, hg, hgh, hkey, hid⟩ := St.mem_holders.1 hp
  rw [← hkey, ← hid]
  constructor
  · intro hk
    rw [h.eq_of_key hg hf hgh hh hk]
  · intro hi
    rw [h.eq_of_id hg hf hi]

theorem quiet (h : Single st) {st' : St K V E J} (hfills : st'.fills = st.fills)
    (hmarks : st'.store.marks = st.store.marks) : Single st' := by
  obtain ⟨hpending, hnext⟩ := Prod.mk.inj hmarks
  have hholders : st'.holders = st.holders := by rw [St.holders, hfills]; rfl
  refine ⟨?_, ?_, ?_, ?_⟩
  · rw [hfills]
    exact h.ids
  · rw [hfills, hnext]
    exact h.below
  · rw [hholders]
    exact h.keys
  · rw [Store.tags, hpending, hholders]
    exact h.markers

/-- a fill moves on and holds its key as before -/
theorem moved (h : Single st) {st' : St K V E J} {f : Fill K V E J} {stage : Stage V E} (hf : st.fill? f.id = some f)
    (hholds : stage.holds = f.stage.holds) (hfills : st'.fills = (st.move f.id stage).fills)
    (hmarks : st'.store.marks = st.store.marks) : Single st' := by
  obtain ⟨hpending, hnext⟩ := Prod.mk.inj hmarks
  obtain ⟨hmem, -⟩ := fill?_some hf
  have hholders : st'.holders = st.holders := by
    have hmove : (st.move f.id stage).holders = st.holders :=
      St.holders_move fun g hg hid => by rw [h.eq_of_id hg hmem hid, hholds]
    rw [← hmove, St.holders, hfills]
    rfl
  refine ⟨?_, ?_, ?_, ?_⟩
  · rw [hfills, St.move_ids]
    exact h.ids
  · rw [hfills, St.move_ids, hnext]
    exact h.below
  · rw [hholders]
    exact h.keys
  · rw [Store.tags, hpending, hholders]
    exact h.markers

variable [DecidableEq K]

/-- a key is marked with a fill if and only if the fill holds it -/
theorem filling?_eq_some_iff (h : Single st) {key : K} {id : Nat} :
    st.store.filling? key = some id ↔ (key, id) ∈ st.holders := by
  rw [← h.markers]
  exact ⟨Store.filling?_eq_some, Store.filling?_of_mem (by rw [h.markers]; exact h.keys)⟩

theorem filling?_of_holds (h : Single st) {f : Fill K V E J} (hf : f ∈ st.fills) (hh : f.stage.holds = true) :
    st.store.filling? f.key = some f.id :=
  h.filling?_eq_some_iff.2 (St.holders_of_mem hf hh)

/-- a key that is not marked is held by no fill -/
theorem not_holds (h : Single st) {key : K} (hn : st.store.filling? key = none) {f : Fill K V E J} (hf : f ∈ st.fills)
    (hk : f.key = key) : f.stage.holds = false := by
  cases hh : f.stage.holds with
  | false => rfl
  | true =>
    have hs := h.filling?_of_holds hf hh
    rw [hk, hn] at hs
    exact absurd hs (by simp)

/-- a fill starts under a key that was not marked -/
theorem started (h : Single st) {st' : St K V E J} {key : K} {ttl : Option Nat} {job : J}
    (hn : st.store.filling? key = none)
    (hfills : st'.fills = st.fills ++ [⟨st.store.nextFill + 1, key, ttl, job, .queued⟩])
    (hmarks : st'.store.marks = (st.store.pending ++ [⟨key, st.store.nextFill + 1, st.now⟩], st.store.nextFill + 1)) :
    Single st' := by
  obtain ⟨hpending, hnext⟩ := Prod.mk.inj hmarks
  have hholders : st'.holders = st.holders ++ [(key, st.store.nextFill + 1)] := by
    simp [St.holders, hfills, Stage.holds]
  refine ⟨?_, ?_, ?_, ?_⟩
  · rw [hfills, List.map_append]
    refine h.ids.append (List.nodup_singleton _) ?_
    intro id hid hnew
    have hle := h.below id hid
    have heq : id = st.store.nextFill + 1 := by simpa using hnew
    omega
  · intro id hid
    rw [hfills, List.map_append, List.mem_append] at hid
    rw [hnext]
    rcases hid with hid | hid
    · exact Nat.le_succ_of_le (h.below id hid)
    · exact (List.mem_singleton.1 hid).le
  · rw [hholders, List.map_append]
    refine h.keys.append (List.nodup_singleton _) ?_
    intro k hk hnew
    obtain ⟨⟨k', id⟩, hm, rfl⟩ := List.mem_map.1 hk
    obtain ⟨f, hf, hh, hkey, -⟩ := St.mem_holders.1 hm
    have heq : k' = key := by simpa using hnew
    have hfalse := h.not_holds hn hf (hkey.trans heq)
    rw [hh] at hfalse
    exact absurd hfalse (by simp)
  · rw [Store.tags, hpending, hholders, List.map_append, ← h.markers]
    rfl

/-- a running fill ends and lets go of its key -/
theorem ended (h : Single st) {st' : St K V E J} {f : Fill K V E J} {outcome : Option (Except E V)}
    (hf : st.fill? f.id = some f) (hrun : f.stage = .running)
    (hfills : st'.fills = (st.move f.id (.ended outcome)).fills)
    (hmarks : st'.store.marks = (st.store.release f.key f.id).marks) : Single st' := by
  obtain ⟨hmem, -⟩ := fill?_some hf
  have hown : st.store.filling? f.key = some f.id := h.filling?_of_holds hmem (by rw [hrun]; rfl)
  obtain ⟨hpending, hnext⟩ := Prod.mk.inj hmarks
  have hholders : st'.holders = st.holders.filter fun p => decide (p.2 ≠ f.id) := by
    rw [← St.holders_move_ended st f.id outcome, St.holders, hfills]
    rfl
  refine ⟨?_, ?_, ?_, ?_⟩
  · rw [hfills, St.move_ids]
    exact h.ids
  · rw [hfills, St.move_ids, hnext, Store.release_nextFill]
    exact h.below
  · rw [hholders]
    exact h.keys.sublist (List.filter_sublist.map _)
  -- the fill is the only one that holds its key, so the marker that goes is its own
  · have htags : st'.store.tags = (st.store.release f.key f.id).tags := congrArg (List.map _) hpending
    rw [htags, Store.tags_release hown, h.markers, hholders]
    refine List.filter_congr fun p hp => ?_
    exact decide_eq_decide.2 (not_congr (h.key_iff hmem (by rw [hrun]; rfl) hp))

end Single

theorem new_single : Single (.new : St K V E J) :=
  ⟨List.nodup_nil, fun _ h => absurd h List.not_mem_nil, List.nodup_nil, rfl⟩

/-- whether no fill of the key had its task dropped in the queue -/
def St.Undropped (st : St K V E J) (key : K) : Prop := ∀ f ∈ st.fills, f.key = key → f.stage ≠ .dropped

theorem Stage.holds_eq_isUnderWay {stage : Stage V E} (h : stage ≠ .dropped) : stage.holds = stage.isUnderWay := by
  cases stage with
  | dropped => exact absurd rfl h
  | _ => rfl

variable [DecidableEq K]

theorem St.isFilling_iff {st : St K V E J} {key : K} :
    st.isFilling key = true ↔ ∃ f ∈ st.fills, f.key = key ∧ f.stage.isUnderWay = true := by
  simp only [St.isFilling, List.any_eq_true, Bool.and_eq_true, decide_eq_true_eq]

/-- where no task was dropped, a key is marked with a fill if and only if that is its fill under way -/
theorem Single.filling?_eq_some_iff_isUnderWay {st : St K V E J} (h : Single st) {key : K} (hu : st.Undropped key)
    {id : Nat} :
    st.store.filling? key = some id ↔ ∃ f ∈ st.fills, f.stage.isUnderWay = true ∧ f.key = key ∧ f.id = id := by
  rw [h.filling?_eq_some_iff, St.mem_holders]
  constructor
  · rintro ⟨f, hf, hh, hk, hid⟩
    exact ⟨f, hf, (Stage.holds_eq_isUnderWay (hu f hf hk)).symm.trans hh, hk, hid⟩
  · rintro ⟨f, hf, hh, hk, hid⟩
    exact ⟨f, hf, (Stage.holds_eq_isUnderWay (hu f hf hk)).trans hh, hk, hid⟩

/-- where no task was dropped, a caller that finds no live entry starts a fill if and only if none is under way -/
theorem Single.fetch_fills (c : Setup) {st : St K V E J} (h : Single st) {key : K}
    (hu : st.Undropped key) (ttl : Option Nat) (job : J) (hno : ∀ v, (st.store.lookup key st.now).2 ≠ .hit v) :
    (st.fetch c key ttl job).1.fills =
      if st.isFilling key then st.fills else st.fills ++ [⟨st.store.nextFill + 1, key, ttl, job, .queued⟩] := by
  obtain ⟨ticket, ha, -⟩ := fetch_admits c st key ttl job
  generalize (st.fetch c key ttl job).1.fills = fills at ha ⊢
  generalize (st.fetch c key ttl job).1.store.marks = marks at ha
  cases ha with
  | hit v hv => exact absurd hv (hno v)
  | join fill _ hs =>
    obtain ⟨f, hf, hh, hk, -⟩ := (h.filling?_eq_some_iff_isUnderWay hu).1 hs
    rw [if_pos (St.isFilling_iff.2 ⟨f, hf, hk, hh⟩)]
  | lead _ hn =>
    have hnot : ¬st.isFilling key = true := by
      intro hfilling
      obtain ⟨f, hf, hk, hh⟩ := St.isFilling_iff.1 hfilling
      have hfalse := h.not_holds hn hf hk
      rw [Stage.holds_eq_isUnderWay (hu f hf hk), hh] at hfalse
      exact absurd hfalse (by simp)
    rw [if_neg hnot]

variable [Footprint K] [Footprint V]

theorem step_single (c : Setup) {st : St K V E J} (act : Act K V E J) (h : Single st) : Single (step c st act) := by
  cases step_fills c st act with
  | quiet hfills hmarks => exact h.quiet hfills hmarks
  | started key ttl job _ hn hfills hmarks => exact h.started hn hfills hmarks
  | moved f stage hf _ hholds hfills hmarks => exact h.moved hf hholds hfills hmarks
  | ended f outcome hf hrun _ hfills hmarks => exact h.ended hf hrun hfills hmarks

theorem run_single (c : Setup) (acts : List (Act K V E J)) : Single (run c (.new : St K V E J) acts) := by
  induction acts using List.reverseRecOn with
  | nil => exact new_single
  | append_singleton acts act ih =>
    rw [run_snoc]
    exact step_single c act ih

theorem run_undropped (c : Setup) (acts : List (Act K V E J)) {key : K} (h : ∀ fill, ¬Dropped c acts key fill) :
    (run c (.new : St K V E J) acts).Undropped key := by
  intro f hf hk hdropped
  exact h f.id (dropped_iff.2 ⟨f, fill?_of_mem (run_single c acts).ids hf, hk, hdropped⟩)

theorem not_dropped {c : Setup} {acts : List (Act K V E J)} (h : ∀ fill, Act.discard fill ∉ acts) {key : K}
    {fill : Nat} : ¬Dropped c acts key fill := by
  rintro ⟨pre, act, post, rfl, rfl, -⟩
  exact h fill (by simp)

/-- **Single flight.** After any sequence of acts in which no task is dropped, no two fills share a number, and no two
fills of one key are under way. A key is marked at most once, and with just that fill of it that is under way. A caller
that finds no live entry starts its job if and only if no fill of the key is under way; and a fill that ends finds its
own marker under its key. -/
theorem single_flight (c : Setup) (acts : List (Act K V E J)) (h : ∀ fill, Act.discard fill ∉ acts) :
    let st : St K V E J := run c .new acts
    (st.fills.map (·.id)).Nodup ∧
    (∀ f ∈ st.fills, ∀ g ∈ st.fills, f.stage.isUnderWay = true → g.stage.isUnderWay = true → f.key = g.key → f = g) ∧
    (st.store.pending.map (·.key)).Nodup ∧
    (∀ key id, st.store.filling? key = some id ↔
      ∃ f ∈ st.fills, f.stage.isUnderWay = true ∧ f.key = key ∧ f.id = id) ∧
    (∀ key ttl job, (∀ v, (st.store.lookup key st.now).2 ≠ .hit v) →
      (st.fetch c key ttl job).1.fills =
        if st.isFilling key then st.fills else st.fills ++ [⟨st.store.nextFill + 1, key, ttl, job, .queued⟩]) ∧
    ∀ f ∈ st.fills, f.stage = .running → st.store.filling? f.key = some f.id := by
  intro st
  have hs : Single st := run_single c acts
  have hu : ∀ key, st.Undropped key := fun key => run_undropped c acts fun fill => not_dropped h
  refine ⟨hs.ids, fun f hf g hg hfw hgw hk => ?_, ?_, fun key id => hs.filling?_eq_some_iff_isUnderWay (hu key),
    fun key ttl job => hs.fetch_fills c (hu key) ttl job,
    fun f hf hrun => hs.filling?_of_holds hf (by rw [hrun]; rfl)⟩
  · have hfh := (Stage.holds_eq_isUnderWay (hu f.key f hf rfl)).trans hfw
    have hgh := (Stage.holds_eq_isUnderWay (hu g.key g hg rfl)).trans hgw
    exact hs.eq_of_key hf hg hfh hgh hk
  · have hkeys := hs.keys
    rw [← hs.markers, Store.tags, List.map_map] at hkeys
    exact hkeys

/-- a fill that two callers share while its key is stored and everything is cleared -/
def sharedFill : List (Act Nat Nat String Unit) :=
  [.fetch 7 none (), .begin 1, .fetch 7 none (), .set 7 5 none, .clear]

/-- the key of the shared fill is marked with it, and a third caller starts nothing -/
theorem sharedFill_single :
    let st := run .plain .new sharedFill
    (∀ fill, Act.discard fill ∉ sharedFill) ∧ st.store.filling? 7 = some 1 ∧
    (st.fetch .plain 7 none ()).1.fills = st.fills := by
  intro st
  have hacts : ∀ fill, Act.discard fill ∉ sharedFill := by simp [sharedFill]
  obtain ⟨-, -, -, hmarked, hfetch, -⟩ := single_flight .plain sharedFill hacts
  have hmem : ⟨1, 7, none, (), .running⟩ ∈ (run .plain .new sharedFill).fills := List.mem_singleton_self _
  refine ⟨hacts, (hmarked 7 1).2 ⟨_, hmem, rfl, rfl, rfl⟩, ?_⟩
  exact hfetch 7 none () (Store.Lookup.ne_hit_of_miss rfl)

end ChainBridge.Cache
