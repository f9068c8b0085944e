/-
The counters of a cache balance.

One who stands beside a cache and writes down what it is asked and what leaves it keeps a `Journal`. The books of the
cache agree with the journal after every run: each `get` and each `fetch` was counted as a hit, a miss or coalesced,
each value that was offered to be stored was counted as stored or as turned away, each fill that was ever started was
counted as a miss, and whatever was once stored is stored still or has left in one of the ways that there are
(`Balanced`). `step_balanced` is the step, and `counters_conserved` says it of runs.
-/
import Mathlib
import ChainBridge.Cache.Stats
import ChainBridge.Proofs.Cache.Census

namespace ChainBridge.Cache

variable {K V E J : Type}

/-! ## The journal -/

/-- what a cache is asked to do, and what leaves it on request -/
structure Journal where
  gets : Nat
  fetches : Nat
  /-- values that are to be stored at once -/
  sets : Nat
  /-- fills that end with a value -/
  completions : Nat
  /-- calls of `get` that come away with nothing -/
  getMisses : Nat
  /-- fills that are admitted -/
  led : Nat
  /-- entries that are removed by their keys -/
  invalidated : Nat
  /-- entries that are dropped with all others -/
  cleared : Nat
  /-- entries that are taken out since another value is offered under their keys -/
  displaced : Nat
deriving DecidableEq, Repr

namespace Journal

def zero : Journal := ⟨0, 0, 0, 0, 0, 0, 0, 0, 0⟩

def plus (j k : Journal) : Journal :=
  ⟨j.gets + k.gets, j.fetches + k.fetches, j.sets + k.sets, j.completions + k.completions, j.getMisses + k.getMisses,
    j.led + k.led, j.invalidated + k.invalidated, j.cleared + k.cleared, j.displaced + k.displaced⟩

end Journal

variable [DecidableEq K] [Footprint K] [Footprint V]

/-- the number of entries that a key has -/
def Store.held (s : Store K V) (key : K) : Nat := (s.find? key).isSome.toNat

/-- what is written down when an act is taken. A value that would outlive the clock comes of a `set` that breaks off
when the value is to be stored; that call is over only if the value is turned away before. -/
def Act.journal (c : Setup) (st : St K V E J) : Act K V E J → Journal
  | .get key => { Journal.zero with gets := 1, getMisses := (st.get c key).2.isNone.toNat }
  | .fetch key _ _ => { Journal.zero with fetches := 1, led := (st.store.ask key st.now).2.1.lead?.isSome.toNat }
  | .set key _ _ => { Journal.zero with sets := 1, displaced := st.store.held key }
  | .squeeze key value =>
    { Journal.zero with
      sets := (st.store.makeRoom c.policy.maxSize st.now (entrySize key value) key).2.isNone.toNat
      displaced := st.store.held key }
  | .finish fill (.ok _) =>
    match st.fill? fill with
    | some ⟨_, key, _, _, .running⟩ => { Journal.zero with completions := 1, displaced := st.store.held key }
    | _ => .zero
  | .invalidate key => { Journal.zero with invalidated := (st.invalidate key).2.toNat }
  | .clear => { Journal.zero with cleared := st.store.entries.length }
  | _ => .zero

/-- what is written down over a run of a new cache -/
def journal (c : Setup) (acts : List (Act K V E J)) : Journal :=
  ((moments (step c) .new acts).map fun m => m.2.journal c m.1).foldl Journal.plus .zero

theorem journal_snoc (c : Setup) (acts : List (Act K V E J)) (act : Act K V E J) :
    journal c (acts ++ [act]) = (journal c acts).plus (act.journal c (run c .new acts)) := by
  simp only [journal, moments_snoc, List.map_append, List.foldl_append]
  rfl

/-! ## What leaves the books -/

namespace Store

variable {s : Store K V}

/-- erasing a key takes out what it holds -/
theorem Wf.erase_length (h : Wf s) (key : K) : (s.erase key).entries.length + s.held key = s.entries.length := by
  rw [erase_entries, held]
  cases hf : s.find? key with
  | none =>
    have hall : s.entries.filter (fun e => decide (e.key ≠ key)) = s.entries :=
      List.filter_eq_self.2 fun e he => by simpa using find?_none hf e he
    rw [hall]
    rfl
  | some e => exact (h.entries_perm hf).length_eq.symm

/-- emptying places takes out as many entries -/
theorem Wf.evict_length (h : Wf s) {victims : List (Place K)} (hv : victims.Sublist s.index) :
    (s.entries.filter fun e => decide (e.place ∉ victims)).length + victims.length = s.entries.length := by
  have hnodup : s.index.Nodup := h.slots.of_map _
  have hperm : (s.index.filter fun p => decide (p ∈ victims)).Perm victims := by
    refine (List.perm_ext_iff_of_nodup (hnodup.filter _) (hv.nodup hnodup)).2 fun p => ?_
    rw [List.mem_filter, decide_eq_true_eq, and_iff_right_iff_imp]
    exact fun hp => hv.subset hp
  have hcount : (s.entries.filter fun e => decide (e.place ∈ victims)).length = victims.length := by
    have hlisted := h.listed.countP_eq fun p => decide (p ∈ victims)
    rw [List.countP_map] at hlisted
    rw [← hperm.length_eq, ← List.countP_eq_length_filter, ← List.countP_eq_length_filter, hlisted]
    rfl
  have hsplit := List.length_eq_length_filter_add (l := s.entries) fun e => decide (e.place ∈ victims)
  simp only [← decide_not] at hsplit
  omega

/-- a lookup takes out what it counts as expired -/
theorem Wf.lookup_length (h : Wf s) (key : K) (now : Nat) (joins : Bool) :
    (s.lookup key now).1.entries.length + ((s.lookup key now).2.tally joins).expirations = s.entries.length := by
  have herase := h.erase_length key
  unfold lookup
  cases hf : s.find? key with
  | none => rfl
  | some e =>
    rw [held, hf] at herase
    simp only
    split
    · exact herase
    · rfl

end Store

/-! ## One act -/

section

variable {c : Setup} {st : St K V E J} {act : Act K V E J}

/-- each `get` and each `fetch` is counted as one lookup -/
theorem Act.tally_asked (c : Setup) (st : St K V E J) (act : Act K V E J) :
    (act.tally c st).hits + (act.tally c st).misses + (act.tally c st).coalesced =
      (act.journal c st).gets + (act.journal c st).fetches := by
  have hother : (∀ key, act ≠ .get key) → (∀ key ttl job, act ≠ .fetch key ttl job) →
      (act.tally c st).hits + (act.tally c st).misses + (act.tally c st).coalesced = 0 := by
    intro hget hfetch
    obtain ⟨hhits, hrest⟩ := Prod.mk.inj (Act.tally_lookups c st hget hfetch)
    obtain ⟨hcoalesced, hmisses⟩ := Prod.mk.inj hrest
    rw [hhits, hcoalesced, hmisses]
  cases act with
  | get key =>
    simp only [tally, journal]
    cases (st.store.lookup key st.now).2 <;> rfl
  | fetch key ttl job =>
    simp only [tally, journal]
    cases (st.store.lookup key st.now).2 <;> cases st.store.isPending key <;> rfl
  | finish fill outcome =>
    rw [hother (by simp) (by simp)]
    cases outcome with
    | error e => rfl
    | ok v =>
      simp only [journal]
      split <;> rfl
  | _ => exact hother (by simp) (by simp)

/-- a miss is a fill that is admitted, or a `get` that comes away with nothing -/
theorem Act.tally_misses (c : Setup) (hs : st.store.Wf) (act : Act K V E J) :
    (act.tally c st).misses = (act.journal c st).led + (act.journal c st).getMisses := by
  have hother : (∀ key, act ≠ .get key) → (∀ key ttl job, act ≠ .fetch key ttl job) →
      (act.tally c st).misses = 0 := fun hget hfetch =>
    (Prod.mk.inj (Prod.mk.inj (Act.tally_lookups c st hget hfetch)).2).2
  cases act with
  | get key =>
    cases hl : (st.store.lookup key st.now).2 with
    | hit v =>
      have hget : (st.get c key).2 = some v := get_hit_iff.2 hl
      simp [tally, journal, hl, hget, Store.Lookup.tally, Journal.zero, Counters.zero]
    | _ =>
      have hget : (st.get c key).2 = none := by
        refine Option.eq_none_iff_forall_ne_some.2 fun v hv => ?_
        exact absurd (hl.symm.trans (get_hit_iff.1 hv)) (by simp)
      simp [tally, journal, hl, hget, Store.Lookup.tally, Journal.zero, Counters.zero]
  | fetch key ttl job =>
    have hcounted := (Prod.mk.inj (Prod.mk.inj (fetch_lookups c st key ttl job)).2).2
    have htally := congrArg Counters.misses (step_counters c hs (.fetch key ttl job))
    have hmisses : st.store.counters.misses + ((Act.fetch key ttl job : Act K V E J).tally c st).misses = _ :=
      htally.symm.trans hcounted
    rw [Nat.add_left_cancel hmisses, journal]
    cases (st.store.ask key st.now).2.1 <;> rfl
  | finish fill outcome =>
    rw [hother (by simp) (by simp)]
    cases outcome with
    | error e => rfl
    | ok v =>
      simp only [journal]
      split <;> rfl
  | _ => exact hother (by simp) (by simp)

/-- what is offered is written down as offered, and takes out what its key holds -/
theorem Act.journal_of_offer {o : Offer K V} (ho : act.offer? c st = some o) :
    (o.tally c st.now).inserts + (o.tally c st.now).rejected =
      (act.journal c st).sets + (act.journal c st).completions ∧
    (act.journal c st).displaced = st.store.held o.key := by
  have hkept : ∀ ttl, o.ttl = some ttl → (o.tally c st.now).inserts + (o.tally c st.now).rejected = 1 := by
    intro ttl httl
    simp only [Offer.tally, Offer.entry?, httl]
    cases o.room? c <;> rfl
  cases act with
  | set key value ttl =>
    obtain rfl := Option.some.inj ho
    exact ⟨hkept _ rfl, rfl⟩
  | squeeze key value =>
    obtain rfl := Option.some.inj ho
    refine ⟨?_, rfl⟩
    have hroom := Store.makeRoom_isSome st.store c.policy.maxSize st.now (entrySize key value) key
    cases hr : st.store.room? c.policy.maxSize (entrySize key value) key with
    | none =>
      simp only [journal, ← Option.not_isSome, hroom, Offer.tally, Offer.entry?, Offer.room?, hr]
      rfl
    | some places =>
      simp only [journal, ← Option.not_isSome, hroom, Offer.tally, Offer.entry?, Offer.room?, hr]
      rfl
  | finish fill outcome =>
    cases outcome with
    | error e => exact absurd ho (by simp [offer?])
    | ok v =>
      simp only [offer?] at ho
      split at ho
      · rename_i id key ttl job hf
        obtain rfl := Option.some.inj ho
        simp only [journal, hf]
        exact ⟨hkept _ rfl, trivial⟩
      · exact absurd ho (by simp)
  | _ => exact absurd ho (by simp [offer?])

/-- where nothing is offered, nothing is written down as such -/
theorem Act.journal_of_no_offer (ho : act.offer? c st = none) :
    (act.journal c st).sets = 0 ∧ (act.journal c st).completions = 0 ∧ (act.journal c st).displaced = 0 := by
  cases act with
  | set key value ttl => exact absurd ho (by simp [offer?])
  | squeeze key value => exact absurd ho (by simp [offer?])
  | finish fill outcome =>
    cases outcome with
    | error e => exact ⟨rfl, rfl, rfl⟩
    | ok v =>
      simp only [journal]
      split
      · rename_i hf
        exact absurd ho (by simp [offer?, hf])
      · exact ⟨rfl, rfl, rfl⟩
  | _ => exact ⟨rfl, rfl, rfl⟩

/-- what is offered is counted as stored or as turned away -/
theorem Act.tally_offered (c : Setup) (st : St K V E J) (act : Act K V E J) :
    (act.tally c st).inserts + (act.tally c st).rejected =
      (act.journal c st).sets + (act.journal c st).completions := by
  cases ho : act.offer? c st with
  | none =>
    obtain ⟨hinserts, -, hrejected⟩ := Act.tally_of_no_offer ho
    obtain ⟨hsets, hcompletions, -⟩ := Act.journal_of_no_offer ho
    rw [hinserts, hrejected, hsets, hcompletions]
  | some o =>
    rw [Act.tally_of_offer ho]
    exact (Act.journal_of_offer ho).1

omit [DecidableEq K] [Footprint K] [Footprint V] in
theorem length_jobs (st : St K V E J) : st.jobs.length = st.fills.length := List.length_map _

/-- fills are never forgotten -/
theorem step_fills_length (c : Setup) (st : St K V E J) (act : Act K V E J) :
    (step c st act).fills.length = st.fills.length + (act.journal c st).led := by
  have hother : (∀ key ttl job, act ≠ .fetch key ttl job) → (step c st act).fills.length = st.fills.length := by
    intro hfetch
    rw [← length_jobs, ← length_jobs, step_jobs c st hfetch]
  cases act with
  | fetch key ttl job =>
    have hjobs := congrArg List.length (fetch_jobs c st key ttl job)
    rw [length_jobs, List.length_append, length_jobs] at hjobs
    rw [step, hjobs, Act.journal]
    cases (st.store.ask key st.now).2.1.lead? <;> rfl
  | finish fill outcome =>
    rw [hother (by simp)]
    cases outcome with
    | error e => rfl
    | ok v =>
      simp only [Act.journal]
      split <;> rfl
  | _ => exact hother (by simp)

/-- an offer takes out what its key holds and what is counted as evicted or expired, and adds what is counted as stored
-/
theorem Edits.offer_length (hs : st.store.Wf) {st' : St K V E J} (h : Edits c st st' act) {o : Offer K V}
    (ho : act.offer? c st = some o) :
    st'.store.entries.length + (o.tally c st.now).evictions + (o.tally c st.now).expirations + st.store.held o.key =
      st.store.entries.length + (o.tally c st.now).inserts := by
  have hbooks := Offer.books_wf hs ho
  have hentries : o.books.entries = st.store.entries := (Offer.books_entries ho).1
  have hheld : o.books.held o.key = st.store.held o.key := by
    rw [Store.held, Store.held, Store.find?, hentries]
    rfl
  have herased := hbooks.erase_length o.key
  have hvictims : (o.victims c).Sublist (o.books.erase o.key).index := by
    cases hr : o.room? c with
    | none =>
      rw [Offer.victims, Store.victims_of_no_room hr]
      exact List.nil_sublist _
    | some places =>
      rw [Offer.victims, Store.victims_of_room? hr]
      exact Store.room?_sublist hr
  have hevicted := (hbooks.erase o.key).evict_length hvictims
  have hcounted : (o.tally c st.now).evictions + (o.tally c st.now).expirations = (o.victims c).length := by
    rw [Offer.tally, Offer.victims, Store.victims, ← Offer.room?]
    cases o.room? c with
    | none => rfl
    | some places =>
      refine Eq.trans ?_ (List.length_eq_countP_add_countP fun p => isExpired p.expiresAt st.now).symm
      simp [Store.roomTally, Nat.add_comm]
  have hlength : st'.store.entries.length =
      ((o.books.erase o.key).entries.filter fun e => decide (e.place ∉ o.victims c)).length +
        (o.tally c st.now).inserts := by
    have hspared : st.store.entries.filter (act.spares c st) =
        (o.books.erase o.key).entries.filter fun e => decide (e.place ∉ o.victims c) := by
      rw [Store.erase_entries, List.filter_filter, hentries]
      refine List.filter_congr fun e _ => ?_
      rw [Act.spares_of_offer ho, Bool.decide_and, Bool.and_comm]
    rw [h.entries, List.length_append, hspared]
    simp only [Act.adds, ho, Option.bind_some]
    rfl
  rw [hentries] at herased
  omega

/-- whatever leaves is written down, or counted as evicted or expired -/
theorem step_length (c : Setup) (hs : st.store.Wf) (act : Act K V E J) :
    (step c st act).store.entries.length + (act.tally c st).evictions + (act.tally c st).expirations +
        ((act.journal c st).invalidated + (act.journal c st).cleared + (act.journal c st).displaced) =
      st.store.entries.length + (act.tally c st).inserts := by
  have hedits := step_edits c hs act
  cases ho : act.offer? c st with
  | some o =>
    obtain ⟨-, hdisplaced⟩ := Act.journal_of_offer ho
    have hlength := hedits.offer_length hs ho
    have hkept : (act.journal c st).invalidated = 0 ∧ (act.journal c st).cleared = 0 := by
      cases act with
      | finish fill outcome =>
        cases outcome with
        | error e => exact ⟨rfl, rfl⟩
        | ok v =>
          simp only [Act.journal]
          split <;> exact ⟨rfl, rfl⟩
      | invalidate key => exact absurd ho (by simp [Act.offer?])
      | clear => exact absurd ho (by simp [Act.offer?])
      | _ => exact ⟨rfl, rfl⟩
    rw [Act.tally_of_offer ho]
    omega
  | none =>
    obtain ⟨hinserts, hevictions, -⟩ := Act.tally_of_no_offer ho
    obtain ⟨-, -, hdisplaced⟩ := Act.journal_of_no_offer ho
    have hentries := hedits.entries
    rw [Act.adds, ho, Option.bind_none, Option.toList_none, List.append_nil] at hentries
    have hquiet : (∀ e, act.spares c st e = true) → (step c st act).store.entries.length = st.store.entries.length := by
      intro hspares
      rw [hentries, List.filter_eq_self.2 fun e _ => hspares e]
    rw [hinserts, hevictions, hdisplaced]
    cases act with
    | get key =>
      have hlookup := hs.lookup_length key st.now false
      rw [← (get_entries c st key).1] at hlookup
      exact hlookup
    | fetch key ttl job =>
      have hlookup := hs.lookup_length key st.now (st.store.isPending key)
      rw [← (fetch_entries c st key ttl job).1] at hlookup
      exact hlookup
    | invalidate key =>
      have herased : (step c st (.invalidate key)).store.entries.length + st.store.held key = st.store.entries.length :=
        hs.erase_length key
      rw [← herased, Store.held]
      simp only [Act.journal, St.invalidate]
      cases st.store.find? key <;> rfl
    | clear =>
      have hcleared : (step c st .clear).store.entries.length = 0 := rfl
      have hkept : ((Act.clear : Act K V E J).tally c st).expirations = 0 := rfl
      simp only [Act.journal, hcleared, hkept, Journal.zero]
      omega
    | purge =>
      have hpurged : (step c st .purge).store.entries = _ := (Store.purge_entries hs st.now).1
      have hsplit := List.length_eq_length_filter_add (l := st.store.entries) fun e => isExpired e.expiresAt st.now
      rw [← List.countP_eq_length_filter] at hsplit
      rw [hpurged, hsplit, Nat.add_comm (List.countP _ _)]
      rfl
    | set key value ttl => exact absurd ho (by simp [Act.offer?])
    | squeeze key value => exact absurd ho (by simp [Act.offer?])
    | finish fill outcome =>
      rw [hquiet fun e => by simp [Act.spares, ho]]
      cases outcome with
      | error e => rfl
      | ok v =>
        simp only [Act.tally, Act.journal, ho]
        split <;> rfl
    | _ =>
      rw [hquiet fun _ => rfl]
      rfl

end

/-! ## Runs -/

/-- the books of a cache and the journal that was kept beside it agree -/
structure Balanced (st : St K V E J) (j : Journal) : Prop where
  lookups : st.store.counters.hits + st.store.counters.misses + st.store.counters.coalesced = j.gets + j.fetches
  offers : st.store.counters.inserts + st.store.counters.rejected = j.sets + j.completions
  fills : j.led = st.fills.length
  misses : st.store.counters.misses = j.led + j.getMisses
  entries : st.store.counters.inserts = st.store.entries.length + st.store.counters.evictions +
    st.store.counters.expirations + (j.invalidated + j.cleared + j.displaced)

omit [DecidableEq K] [Footprint K] [Footprint V] in
theorem new_balanced : Balanced (.new : St K V E J) .zero := ⟨rfl, rfl, rfl, rfl, rfl⟩

theorem step_balanced (c : Setup) {st : St K V E J} (hs : st.store.Wf) {j : Journal} (h : Balanced st j)
    (act : Act K V E J) : Balanced (step c st act) (j.plus (act.journal c st)) := by
  have hasked := Act.tally_asked c st act
  have hoffered := Act.tally_offered c st act
  have hmissed := Act.tally_misses c hs act
  have hfills := step_fills_length c st act
  have hlength := step_length c hs act
  obtain ⟨hlookups, hoffers, hled, hmisses, hentries⟩ := h
  constructor <;> simp only [step_counters c hs act, Counters.plus, Journal.plus] <;> omega

theorem run_balanced (c : Setup) (acts : List (Act K V E J)) : Balanced (run c .new acts) (journal c acts) := by
  induction acts using List.reverseRecOn with
  | nil => exact new_balanced
  | append_singleton acts act ih =>
    rw [run_snoc, journal_snoc]
    exact step_balanced c (run_wf c acts) ih act

/-- `set` says that it stored a value if and only if that is counted as an insertion -/
theorem set_counted (c : Setup) {st : St K V E J} (hs : st.store.Wf) (key : K) (value : V) (ttl : Option Nat) :
    (st.set c key value ttl).2 = true ↔
      st.store.counters.inserts < (st.set c key value ttl).1.store.counters.inserts := by
  have hcounted := congrArg Counters.inserts (step_counters c hs (.set key value ttl))
  simp only [step] at hcounted
  rw [set_stored, hcounted]
  simp only [Counters.plus, Act.tally, Act.offer?, Option.map_some, Option.getD_some, Offer.tally, Offer.entry?,
    Offer.room?]
  by_cases hroom : (st.store.room? c.policy.maxSize (entrySize key value) key).isSome = true
  · simp [hroom]
  · simp [hroom]

/-- **The counters balance.** After any sequence of acts:
- every `get` and every `fetch` was counted as one lookup;
- every `set` and every fill that ended with a value was counted as one insertion or one rejection, and a `set` that
  comes next says that it stored its value if and only if the count of insertions grows;
- the fills that were ever admitted are as many as the misses that are not those of a `get`;
- what was ever stored is stored still, or was evicted, has expired, was removed by its key, was dropped with all
  others, or was taken out since a value was offered under its key. -/
theorem counters_conserved (c : Setup) (acts : List (Act K V E J)) :
    let st : St K V E J := run c .new acts
    let stats := st.store.stats c.policy.maxSize
    let journal := journal c acts
    stats.counters.hits + stats.counters.misses + stats.counters.coalesced = journal.gets + journal.fetches ∧
    stats.counters.inserts + stats.counters.rejected = journal.sets + journal.completions ∧
    (∀ key value ttl, (st.set c key value ttl).2 = true ↔
      stats.counters.inserts < ((st.set c key value ttl).1.store.stats c.policy.maxSize).counters.inserts) ∧
    (journal.led = st.fills.length ∧ journal.led + journal.getMisses = stats.counters.misses) ∧
    stats.counters.inserts = stats.entries + stats.counters.evictions + stats.counters.expirations +
      journal.invalidated + journal.cleared + journal.displaced := by
  intro st stats journal
  have hwf : st.store.Wf := run_wf c acts
  have hbalanced : Balanced st journal := run_balanced c acts
  refine ⟨hbalanced.lookups, hbalanced.offers, fun key value ttl => set_counted c hwf key value ttl,
    ⟨hbalanced.fills, hbalanced.misses.symm⟩, ?_⟩
  rw [Nat.add_assoc, Nat.add_assoc, ← Nat.add_assoc journal.invalidated]
  exact hbalanced.entries

/-- a value that is too large for the cache is turned away, and the one that its key held is gone -/
example :
    let c : Setup := ⟨"small", ⟨10, 170, 0⟩⟩
    let acts : List (Act Nat Nat String Unit) := [.set 1 5 none, .set 1 (2 ^ 200) none, .get 1]
    (run c .new acts).store.counters = ⟨0, 1, 0, 1, 0, 0, 1⟩ ∧ journal c acts = ⟨1, 0, 2, 0, 1, 0, 0, 0, 1⟩ := by
  decide

end ChainBridge.Cache
