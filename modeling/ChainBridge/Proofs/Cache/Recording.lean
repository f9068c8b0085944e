/-
What a cache tells the recorder.

A cache counts for itself and tells a recorder of what it counts. It tells of an insertion while it still holds its
books, but of anything else only once it has let go of them, so that other operations may come between. `Owing` is a
cache together with the records that are still to be made, and a `Stride` is a whole act, the first half of one, or one
record that is owed; they come in any order. A whole act is a step of the cache, so that a run is a walk too
(`walk_whole`). An insertion that breaks off is over and owes nothing; what it had counted by then is lost to the
recorder (`Act.lost`).

Whatever the strides, what each series shows, what is owed to it and what is lost make up what the cache has counted
(`Told`), and the gauges show or are owed what was so right after one of the latest sweeps (`Dials`, `Latest`).
`metrics_match` says what this comes to where nothing is owed, and `metrics_diverge` that no more is true: removals of
an insertion that broke off are missing, and sweeps that overlap may leave the gauges of the one that came first.
-/
import Mathlib
import ChainBridge.Cache.Stats
import ChainBridge.Proofs.Cache.Series

namespace ChainBridge

namespace Cache

open Metrics (Registry seen)

variable {K V E J : Type} [DecidableEq K] [Footprint K] [Footprint V]

/-! ## What is owed to the recorder -/

/-- something that the recorder is told -/
inductive Record where
  | add (series : Metrics.Counter) (n : Nat)
  | set (gauge : Metrics.Gauge) (n : Nat)
deriving DecidableEq, Repr

namespace Record

/-- tells the recorder; nothing is not added to a series -/
def make (r : Registry) : Record → Registry
  | .add series n => if n = 0 then r else r.add series n
  | .set gauge n => r.set gauge n

/-- what a record adds to a series -/
def amount (k : Metrics.Counter) : Record → Nat
  | .add series n => if k = series then n else 0
  | .set _ _ => 0

end Record

/-- the series that a cache counts in, and what is added to them -/
def Counters.told (t : Counters) (cache : String) : List (Metrics.Counter × Nat) :=
  [(.cacheHits cache, t.hits), (.cacheMisses cache, t.misses), (.cacheCoalesced cache, t.coalesced),
    (.cacheEvictions cache "capacity", t.evictions), (.cacheEvictions cache "expired", t.expirations)]

def Counters.records (t : Counters) (cache : String) : List Record :=
  (t.told cache).filterMap fun p => if p.2 = 0 then none else some (.add p.1 p.2)

/-- what the gauges are to show -/
def Store.gauges (s : Store K V) (cache : String) : List (Metrics.Gauge × Nat) :=
  [(.cacheEntries cache, s.entries.length), (.cacheOccupied cache, s.occupied)]

/-- whether an act is a sweep -/
def Act.sweeps : Act K V E J → Bool
  | .purge => true
  | _ => false

/-- whether an act is an insertion that breaks off once it has made room, before it tells anything -/
def Act.breaksOff : Act K V E J → Bool
  | .squeeze _ _ => true
  | _ => false

/-- what an act has to tell: a sweep tells what it left, besides what it counts -/
def Act.records (c : Setup) (st : St K V E J) (act : Act K V E J) : List Record :=
  if act.breaksOff then []
  else
    (act.tally c st).records c.name ++
      if act.sweeps then ((step c st act).store.gauges c.name).map fun p => .set p.1 p.2 else []

/-- what an act counts and never tells -/
def Act.lost (c : Setup) (st : St K V E J) (act : Act K V E J) : Counters :=
  if act.breaksOff then act.tally c st else .zero

/-- a cache, with the records that it owes to the recorder and what it has counted without telling -/
structure Owing (K V E J : Type) where
  st : St K V E J
  owed : List Record
  lost : Counters

inductive Stride (K V E J : Type) where
  /-- an act that tells at once what it has to tell -/
  | whole (act : Act K V E J)
  /-- an act that is still to tell it -/
  | half (act : Act K V E J)
  /-- a record that is owed is made -/
  | record (i : Nat)

def Stride.sweeps : Stride K V E J → Bool
  | .whole act | .half act => act.sweeps
  | .record _ => false

def stride (c : Setup) (o : Owing K V E J) : Stride K V E J → Owing K V E J
  | .whole act => ⟨step c o.st act, o.owed, o.lost.plus (act.lost c o.st)⟩
  | .half act =>
    ⟨{ step c o.st act with metrics := o.st.metrics }, o.owed ++ act.records c o.st, o.lost.plus (act.lost c o.st)⟩
  | .record i =>
    match o.owed[i]? with
    | some note => ⟨{ o.st with metrics := note.make o.st.metrics }, o.owed.eraseIdx i, o.lost⟩
    | none => o

/-- a new cache with a recorder, and what is done with it -/
def walk (c : Setup) (strides : List (Stride K V E J)) : Owing K V E J := strides.foldl (stride c) ⟨.new, [], .zero⟩

theorem walk_snoc (c : Setup) (strides : List (Stride K V E J)) (last : Stride K V E J) :
    walk c (strides ++ [last]) = stride c (walk c strides) last := by
  rw [walk, List.foldl_append]
  rfl

/-- a run is a walk of whole acts, and owes nothing -/
theorem walk_whole (c : Setup) (acts : List (Act K V E J)) :
    (walk c (acts.map .whole)).st = run c .new acts ∧ (walk c (acts.map .whole)).owed = [] := by
  induction acts using List.reverseRecOn with
  | nil => exact ⟨rfl, rfl⟩
  | append_singleton acts act ih =>
    obtain ⟨hst, howed⟩ := ih
    rw [List.map_append, List.map_singleton, walk_snoc, run_snoc, ← hst]
    exact ⟨rfl, howed⟩

/-- a record that is made is no longer owed -/
theorem owed_perm {owed : List Record} {i : Nat} {note : Record} (h : owed[i]? = some note) :
    owed.Perm (note :: owed.eraseIdx i) := by
  obtain ⟨hi, rfl⟩ := List.getElem?_eq_some_iff.1 h
  exact (List.getElem_cons_eraseIdx_perm hi).symm

/-! ## Series -/

/-- the gauges of a cache -/
def gaugesOf (cache : String) : List Metrics.Gauge := [.cacheEntries cache, .cacheOccupied cache]

/-- what the gauges show or are owed is of some kind; they show or are owed something if there was a sweep -/
structure Dials (c : Setup) (N : Metrics.Gauge → Nat → Prop) (swept : Prop) (o : Owing K V E J) : Prop where
  owed : ∀ g n, .set g n ∈ o.owed → N g n
  shown : ∀ g ∈ gaugesOf c.name, ∀ n, o.st.metrics.gauge? g = some n → N g n ∨ ∃ m, .set g m ∈ o.owed
  present : swept → ∀ g ∈ gaugesOf c.name, (o.st.metrics.gauge? g).isSome = true ∨ ∃ m, .set g m ∈ o.owed

omit [DecidableEq K] [Footprint K] [Footprint V] in
theorem mem_gauges_of {g : Metrics.Gauge} {cache : String} (hg : g ∈ gaugesOf cache) (s : Store K V) :
    ∃ n, (g, n) ∈ s.gauges cache := by
  revert g
  simp [gaugesOf, Store.gauges]

theorem Act.set_mem_records (c : Setup) (st : St K V E J) (act : Act K V E J) {g : Metrics.Gauge} {n : Nat} :
    Record.set g n ∈ act.records c st ↔ act.sweeps = true ∧ (g, n) ∈ (step c st act).store.gauges c.name := by
  have hadded : Record.set g n ∉ (act.tally c st).records c.name := by
    simp only [Counters.records, List.mem_filterMap, not_exists, not_and]
    intro p _
    split <;> simp
  have hwhole : act.sweeps = true → act.breaksOff = false := by cases act <;> simp [Act.sweeps, Act.breaksOff]
  unfold records
  cases hsweeps : act.sweeps with
  | false =>
    split
    · simp
    · simpa using hadded
  | true => simp [hwhole hsweeps, hadded]

theorem step_gauges (c : Setup) (st : St K V E J) {act : Act K V E J} (h : act.sweeps = false) :
    (step c st act).metrics.gauges = st.metrics.gauges := by
  have hheard : Heard c.name fun r => r.gauges = st.metrics.gauges := by
    refine ⟨fun _ hr => hr, fun _ hr => hr, fun _ hr => hr, fun r reason n hr => ?_⟩
    unfold Registry.evicted
    split <;> exact hr
  exact step_heard hheard st act (fun he => absurd h (by simp [he, Act.sweeps])) rfl

section

variable {c : Setup} {N : Metrics.Gauge → Nat → Prop} {swept : Prop} {o : Owing K V E J} {s : Stride K V E J}

theorem Dials.stride (h : Dials c N swept o) (hs : s.sweeps = false) : Dials c N swept (stride c o s) := by
  have hadds : ∀ {act : Act K V E J} {g n}, act.sweeps = false →
      (Record.set g n ∈ o.owed ++ act.records c o.st ↔ Record.set g n ∈ o.owed) := by
    intro act g n hact
    rw [List.mem_append, or_iff_left]
    intro hset
    have hswept := ((act.set_mem_records c o.st).1 hset).1
    simp [hact] at hswept
  cases s with
  | whole act =>
    have hgauges := step_gauges c o.st hs
    obtain ⟨howed, hshown, hpresent⟩ := h
    constructor <;> simp only [Cache.stride, Registry.gauge?, hgauges] <;> assumption
  | half act =>
    obtain ⟨howed, hshown, hpresent⟩ := h
    constructor <;> simp only [Cache.stride, hadds hs] <;> assumption
  | record i =>
    simp only [Cache.stride]
    split
    · rename_i note hi
      have hmem : ∀ r, r ∈ o.owed ↔ r = note ∨ r ∈ o.owed.eraseIdx i := fun r =>
        (owed_perm hi).mem_iff.trans List.mem_cons
      have howed : ∀ g n, .set g n ∈ o.owed.eraseIdx i → N g n := fun g n hset => h.owed g n ((hmem _).2 (.inr hset))
      cases note with
      | add series n =>
        have hgauges : (Record.make o.st.metrics (.add series n)).gauges = o.st.metrics.gauges := by
          simp only [Record.make]
          split <;> rfl
        have hset : ∀ g m, .set g m ∈ o.owed ↔ .set g m ∈ o.owed.eraseIdx i := fun g m => by simp [hmem]
        obtain ⟨-, hshown, hpresent⟩ := h
        simp only [Registry.gauge?, hset] at hshown hpresent
        constructor <;> simp only [Registry.gauge?, hgauges] <;> assumption
      | set g₀ n₀ =>
        have hother : ∀ {g}, g ≠ g₀ → (∃ m, .set g m ∈ o.owed) → ∃ m, .set g m ∈ o.owed.eraseIdx i := by
          rintro g hg ⟨m, hset⟩
          refine ⟨m, ((hmem _).1 hset).resolve_left fun he => hg (Record.set.inj he).1⟩
        refine ⟨howed, fun g hg n hn => ?_, fun hswept g hg => ?_⟩
        · rw [Record.make, Registry.gauge?_set] at hn
          by_cases he : g = g₀
          · subst he
            rw [if_pos rfl] at hn
            exact .inl (h.owed g n ((hmem _).2 (.inl (by rw [Option.some.inj hn]))))
          · rw [if_neg he] at hn
            exact (h.shown g hg n hn).imp_right (hother he)
        · rw [Record.make, Registry.gauge?_set]
          by_cases he : g = g₀
          · exact .inl (by simp [he])
          · rw [if_neg he]
            exact (h.present hswept g hg).imp_right (hother he)
    · exact h

/-- after a sweep the gauges show or are owed what it left -/
theorem Dials.sweep (howed : ∀ g n, .set g n ∈ o.owed → N g n) (hs : s.sweeps = true)
    (hleft : ∀ p ∈ (Cache.stride c o s).st.store.gauges c.name, N p.1 p.2) : Dials c N True (Cache.stride c o s) := by
  have hsweep : ∀ {act : Act K V E J}, act.sweeps = true → act = .purge := by
    intro act hact
    cases act <;> first | rfl | exact absurd hact (by simp [Act.sweeps])
  cases s with
  | record i => exact absurd hs (by simp [Stride.sweeps])
  | whole act =>
    obtain rfl := hsweep hs
    have hgauge : ∀ p ∈ (step c o.st .purge).store.gauges c.name,
        (step c o.st .purge).metrics.gauge? p.1 = some p.2 := by
      simp [Store.gauges, step, St.purge, Registry.occupancy, Registry.gauge?_set]
    refine ⟨howed, fun g hg n hn => ?_, fun _ g hg => ?_⟩
    · obtain ⟨m, hm⟩ := mem_gauges_of hg (step c o.st .purge).store
      obtain rfl : m = n := Option.some.inj ((hgauge _ hm).symm.trans hn)
      exact .inl (hleft _ hm)
    · obtain ⟨m, hm⟩ := mem_gauges_of hg (step c o.st .purge).store
      exact .inl (Option.isSome_iff_exists.2 ⟨m, hgauge _ hm⟩)
  | half act =>
    have howes : ∀ g ∈ gaugesOf c.name, ∃ m, .set g m ∈ o.owed ++ act.records c o.st := by
      intro g hg
      obtain ⟨m, hm⟩ := mem_gauges_of hg (step c o.st act).store
      exact ⟨m, List.mem_append_right _ ((act.set_mem_records c o.st).2 ⟨hs, hm⟩)⟩
    refine ⟨fun g n hset => ?_, fun g hg _ _ => .inr (howes g hg), fun _ g hg => .inr (howes g hg)⟩
    rcases List.mem_append.1 hset with hset | hset
    · exact howed g n hset
    · exact hleft (g, n) ((act.set_mem_records c o.st).1 hset).2

omit [DecidableEq K] [Footprint K] [Footprint V] in
theorem Dials.imp {N' : Metrics.Gauge → Nat → Prop} {swept' : Prop} (h : Dials c N swept o)
    (hN : ∀ g n, N g n → N' g n) (hswept : swept' → swept) : Dials c N' swept' o :=
  ⟨fun g n hset => hN g n (h.owed g n hset), fun g hg n hn => (h.shown g hg n hn).imp_left (hN g n),
    fun hs g hg => h.present (hswept hs) g hg⟩

omit [DecidableEq K] [Footprint K] [Footprint V] in
/-- where nothing is owed, the gauges show what they are to show -/
theorem Dials.settled (h : Dials c N swept o) (ho : o.owed = []) {g : Metrics.Gauge} (hg : g ∈ gaugesOf c.name) :
    (swept → (o.st.metrics.gauge? g).isSome = true) ∧ ∀ n, o.st.metrics.gauge? g = some n → N g n := by
  have hnone : ∀ m, .set g m ∉ o.owed := fun m => ho ▸ List.not_mem_nil
  refine ⟨fun hswept => (h.present hswept g hg).resolve_right ?_, fun n hn => (h.shown g hg n hn).resolve_right ?_⟩
  · rintro ⟨m, hm⟩
    exact hnone m hm
  · rintro ⟨m, hm⟩
    exact hnone m hm

end

/-- whether a number of a gauge is what one of the latest sweeps left: any sweep after that one began while a sweep was
still to be told of -/
def Latest (c : Setup) (strides : List (Stride K V E J)) (g : Metrics.Gauge) (n : Nat) : Prop :=
  ∃ pre s post, strides = pre ++ s :: post ∧ s.sweeps = true ∧
    (g, n) ∈ (walk c (pre ++ [s])).st.store.gauges c.name ∧
    ∀ mid s' rest, post = mid ++ s' :: rest → s'.sweeps = true → ∃ m, .set g m ∈ (walk c (pre ++ s :: mid)).owed

section

variable {c : Setup} {strides : List (Stride K V E J)} {g : Metrics.Gauge} {n : Nat}

/-- a latest sweep remains one unless another comes when all have been told of -/
theorem Latest.snoc (h : Latest c strides g n) {last : Stride K V E J}
    (hlast : last.sweeps = true → ∃ m, .set g m ∈ (walk c strides).owed) : Latest c (strides ++ [last]) g n := by
  obtain ⟨pre, s, post, rfl, hs, hleft, hafter⟩ := h
  refine ⟨pre, s, post ++ [last], by simp, hs, hleft, ?_⟩
  intro mid s' rest he hs'
  rcases split_snoc he with ⟨rfl, rfl, rfl⟩ | ⟨rest', rfl, rfl⟩
  · exact hlast hs'
  · exact hafter mid s' rest' rfl hs'

end

end Cache

end ChainBridge
