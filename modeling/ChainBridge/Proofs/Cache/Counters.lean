/-
What an act adds to the counters of a cache.

Nothing is ever taken off a counter. A lookup is counted as a hit, or as a miss, or as coalesced if the caller joins a
fill, and an expired entry that it met besides. An offer is counted as rejected or, if room can be made for it, by the
places that this empties: those of live entries as evictions, the others as expirations. A sweep counts what it takes
out. No other act is counted. `Act.tally` puts this together, and `step_counters` says that it is all.
-/
import Mathlib
import ChainBridge.Proofs.Cache.Offers
import ChainBridge.Proofs.Cache.History

namespace ChainBridge.Cache

variable {K V E J : Type}

/-- the sums of two counts -/
def Counters.plus (c d : Counters) : Counters :=
  ⟨c.hits + d.hits, c.misses + d.misses, c.coalesced + d.coalesced, c.inserts + d.inserts, c.evictions + d.evictions,
    c.expirations + d.expirations, c.rejected + d.rejected⟩

namespace Store

/-- what a lookup is counted as, if who finds nothing alive joins a fill or does not -/
def Lookup.tally (joins : Bool) : Lookup V → Counters
  | .hit _ => { Counters.zero with hits := 1 }
  | .expired =>
    { Counters.zero with misses := if joins then 0 else 1, coalesced := if joins then 1 else 0, expirations := 1 }
  | .miss => { Counters.zero with misses := if joins then 0 else 1, coalesced := if joins then 1 else 0 }

/-- what is counted when places are emptied, or when there can be no room -/
def roomTally (now : Nat) : Option (List (Place K)) → Counters
  | none => { Counters.zero with rejected := 1 }
  | some places =>
    { Counters.zero with
      evictions := places.countP fun p => !isExpired p.expiresAt now
      expirations := places.countP fun p => isExpired p.expiresAt now }

variable [DecidableEq K] {s : Store K V}

/-! ## What is not counted by itself -/

theorem drop_counters (s : Store K V) (key : K) : (s.drop key).counters = s.counters := by
  unfold drop
  split <;> rfl

theorem erase_counters (s : Store K V) (key : K) : (s.erase key).counters = s.counters := by
  unfold erase
  split
  · rfl
  · exact drop_counters s key

theorem release_counters (s : Store K V) (key : K) (fill : Nat) : (s.release key fill).counters = s.counters := by
  unfold release
  split
  · rfl
  · split_ifs <;> rfl

theorem purgeFrom_counters (now : Nat) (l : List (Place K)) (s : Store K V) :
    (purgeFrom now l s).1.counters = s.counters := by
  induction l generalizing s with
  | nil => rfl
  | cons p rest ih =>
    rw [purgeFrom]
    split_ifs
    · exact (ih (s.drop p.key)).trans (drop_counters s p.key)
    · rfl

theorem evict_counters (now : Nat) (victims : List (Place K)) (s : Store K V) :
    (evict now victims s).1.counters = s.counters := by
  induction victims generalizing s with
  | nil => rfl
  | cons p rest ih =>
    cases hf : s.find? p.key with
    | none =>
      simp only [evict, hf]
      exact ih (s.unlist p.expiresAt p.seq)
    | some e =>
      rw [evict_cons_fst now p rest s e hf]
      exact (ih _).trans (drop_counters s p.key)

/-! ## What is counted -/

theorem lookup_counters {key : K} {now : Nat} {s' : Store K V} {found : Lookup V}
    (h : s.lookup key now = (s', found)) :
    s'.counters = { s.counters with expirations := s.counters.expirations + (found.tally true).expirations } := by
  unfold lookup at h
  split at h
  · obtain ⟨rfl, rfl⟩ := Prod.mk.inj h
    rfl
  · split_ifs at h
    · obtain ⟨rfl, rfl⟩ := Prod.mk.inj h
      simp only [erase_counters]
      rfl
    · obtain ⟨rfl, rfl⟩ := Prod.mk.inj h
      rfl

theorem ask_counters (s : Store K V) (key : K) (now : Nat) :
    (s.ask key now).1.counters = s.counters.plus ((s.lookup key now).2.tally (s.isPending key)) := by
  have hm := lookup_marks s key now
  unfold ask
  split
  · rename_i s' v he
    simp only [he, lookup_counters he]
    rfl
  · rename_i s' found hno he
    rw [he] at hm
    have hpending : s'.pending = s.pending := (Prod.mk.inj hm).1
    have hmarker : s'.marker? key = s.marker? key := by simp only [marker?, hpending]
    simp only [hmarker, lookup_counters he, he, isPending]
    cases s.marker? key <;> cases found <;> first | rfl | exact absurd rfl (hno _)

variable [Footprint K] [Footprint V]

/-- places are counted by whether they have expired when they are emptied -/
theorem Wf.evict_freed (h : Wf s) (now : Nat) {victims : List (Place K)} (hv : victims.Sublist s.index) :
    (evict now victims s).2 =
      ⟨victims.countP fun p => !isExpired p.expiresAt now, victims.countP fun p => isExpired p.expiresAt now⟩ := by
  induction victims generalizing s with
  | nil => rfl
  | cons p rest ih =>
    have hp : p ∈ s.index := hv.subset List.mem_cons_self
    obtain ⟨e, hf, rfl⟩ := h.find?_place hp
    have hrest := ih (h.erase e.place.key) (h.sublist_erase hv)
    rw [← h.empty_place hp] at hrest
    simp only [evict, hf, hrest, List.countP_cons]
    cases hexp : isExpired e.expiresAt now with
    | true => simp [Entry.place, hexp]
    | false => simp [Entry.place, hexp]

theorem Wf.makeRoom_counters (h : Wf s) (max now size : Nat) (key : K) :
    (s.makeRoom max now size key).1.counters = s.counters.plus (roomTally now (s.room? max size key)) := by
  have he := erase_counters s key
  cases hr : s.room? max size key with
  | none =>
    unfold room? at hr
    simp only [Store.makeRoom, hr, he]
    rfl
  | some places =>
    have hfreed := (h.erase key).evict_freed now (room?_sublist hr)
    have hkept := evict_counters now places (s.erase key)
    unfold room? at hr
    simp only [Store.makeRoom, hr, hfreed, hkept, he]
    rfl

theorem Wf.insert_counters (h : Wf s) (max now : Nat) (key : K) (value : V) (ttl : Nat) :
    (s.insert max now key value ttl).1.counters =
      s.counters.plus { roomTally now (s.room? max (entrySize key value) key) with
        inserts := if (s.room? max (entrySize key value) key).isSome then 1 else 0 } := by
  have hc := h.makeRoom_counters max now (entrySize key value) key
  have hroom := makeRoom_isSome s max now (entrySize key value) key
  cases hr : s.makeRoom max now (entrySize key value) key with
  | mk s' freed =>
    simp only [hr] at hc hroom
    cases freed with
    | none =>
      rw [insert_of_no_room ttl hr, ← hroom]
      simp only [hc]
      cases s.room? max (entrySize key value) key <;> rfl
    | some freed =>
      rw [insert_of_room ttl hr, ← hroom]
      simp only [Store.put, hc]
      cases s.room? max (entrySize key value) key <;> rfl

end Store

/-! ## Acts -/

variable [DecidableEq K] [Footprint K] [Footprint V]

/-- what an offer is counted as -/
def Offer.tally (c : Setup) (now : Nat) (o : Offer K V) : Counters :=
  { Store.roomTally now (o.room? c) with inserts := (o.entry? c now).toList.length }

/-- what an act adds to the counters -/
def Act.tally (c : Setup) (st : St K V E J) : Act K V E J → Counters
  | .get key => (st.store.lookup key st.now).2.tally false
  | .fetch key _ _ => (st.store.lookup key st.now).2.tally (st.store.isPending key)
  | .purge => { Counters.zero with expirations := st.store.entries.countP fun e => isExpired e.expiresAt st.now }
  | act => ((act.offer? c st).map (Offer.tally c st.now)).getD .zero

section

variable {c : Setup} {st : St K V E J} {act : Act K V E J}

theorem Act.tally_of_offer {o : Offer K V} (ho : act.offer? c st = some o) : act.tally c st = o.tally c st.now := by
  cases act with
  | set key value ttl => simp only [tally, ho, Option.map_some, Option.getD_some]
  | squeeze key value => simp only [tally, ho, Option.map_some, Option.getD_some]
  | finish fill outcome => simp only [tally, ho, Option.map_some, Option.getD_some]
  | _ => exact absurd ho (by simp [Act.offer?])

/-- an act that offers nothing stores, evicts and rejects nothing -/
theorem Act.tally_of_no_offer (ho : act.offer? c st = none) :
    (act.tally c st).inserts = 0 ∧ (act.tally c st).evictions = 0 ∧ (act.tally c st).rejected = 0 := by
  cases act with
  | get key =>
    simp only [tally]
    cases (st.store.lookup key st.now).2 <;> exact ⟨rfl, rfl, rfl⟩
  | fetch key ttl job =>
    simp only [tally]
    cases (st.store.lookup key st.now).2 <;> exact ⟨rfl, rfl, rfl⟩
  | purge => exact ⟨rfl, rfl, rfl⟩
  | _ =>
    simp only [tally, ho]
    exact ⟨rfl, rfl, rfl⟩

/-- a value that is offered to be kept -/
theorem insert_tally (hs : st.store.Wf) {o : Offer K V} {ttl : Nat} (ho : act.offer? c st = some o)
    (ht : o.ttl = some ttl) :
    (o.books.insert c.policy.maxSize st.now o.key o.value ttl).1.counters =
      st.store.counters.plus (act.tally c st) := by
  have hbooks : o.books.counters = st.store.counters := by
    rcases Offer.books_eq ho with he | ⟨key, fill, he⟩
    · rw [he]
    · rw [he]
      exact Store.release_counters st.store key fill
  rw [(Offer.books_wf hs ho).insert_counters, hbooks, Act.tally_of_offer ho, Offer.tally, Offer.entry?, ht]
  cases hr : o.books.room? c.policy.maxSize (entrySize o.key o.value) o.key with
  | none => simp [Offer.room?, hr]
  | some places => simp [Offer.room?, hr]

omit [Footprint K] [Footprint V] in
theorem get_counters (c : Setup) (st : St K V E J) (key : K) :
    (st.get c key).1.store.counters = st.store.counters.plus ((st.store.lookup key st.now).2.tally false) := by
  unfold St.get
  split
  · rename_i s' v he
    simp only [he, Store.lookup_counters he]
    rfl
  · rename_i s' found hno he
    simp only [he, Store.lookup_counters he]
    cases found <;> first | rfl | exact absurd rfl (hno _)

theorem finish_counters (c : Setup) (hs : st.store.Wf) (fill : Nat) (outcome : Except E V) :
    (st.finish c fill outcome).store.counters =
      st.store.counters.plus ((Act.finish fill outcome : Act K V E J).tally c st) := by
  cases hf : st.fill? fill with
  | none =>
    have ho : (Act.finish fill outcome : Act K V E J).offer? c st = none := by
      cases outcome <;> simp [Act.offer?, hf]
    simp only [St.finish, hf, Act.tally, ho]
    rfl
  | some f =>
    obtain ⟨i, key, ttl, job, stage⟩ := f
    cases outcome with
    | error e =>
      have ho : (Act.finish fill (.error e) : Act K V E J).offer? c st = none := rfl
      cases stage with
      | running =>
        simp only [St.finish, hf, Act.tally, ho]
        exact Store.release_counters st.store key fill
      | _ =>
        simp only [St.finish, hf, Act.tally, ho]
        rfl
    | ok v =>
      cases stage with
      | running =>
        have ho : (Act.finish fill (.ok v) : Act K V E J).offer? c st =
            some ⟨st.store.release key fill, key, v, some (ttl.getD c.policy.defaultTtl)⟩ := by
          simp [Act.offer?, hf]
        rw [finish_running c hf, ← insert_tally hs ho rfl]
        exact congrArg Store.counters (set_store c _ key v ttl)
      | _ =>
        have ho : (Act.finish fill (.ok v) : Act K V E J).offer? c st = none := by simp [Act.offer?, hf]
        simp only [St.finish, hf, Act.tally, ho]
        rfl

omit [Footprint K] [Footprint V] in
theorem crash_counters (st : St K V E J) (fill : Nat) : (st.crash fill).store.counters = st.store.counters := by
  simp only [St.crash]
  split
  · exact Store.release_counters st.store _ fill
  · rfl

/-- an act adds its tally to the counters, and nothing else -/
theorem step_counters (c : Setup) (hs : st.store.Wf) (act : Act K V E J) :
    (step c st act).store.counters = st.store.counters.plus (act.tally c st) := by
  cases act with
  | get key => exact get_counters c st key
  | set key value ttl =>
    have ho : (Act.set key value ttl : Act K V E J).offer? c st =
        some ⟨st.store, key, value, some (ttl.getD c.policy.defaultTtl)⟩ := rfl
    rw [← insert_tally hs ho rfl]
    exact congrArg Store.counters (set_store c st key value ttl)
  | squeeze key value =>
    refine (hs.makeRoom_counters c.policy.maxSize st.now (entrySize key value) key).trans ?_
    have ho : (Act.squeeze key value : Act K V E J).offer? c st = some ⟨st.store, key, value, none⟩ := rfl
    rw [Act.tally_of_offer ho]
    cases hr : st.store.room? c.policy.maxSize (entrySize key value) key with
    | none =>
      simp only [Offer.tally, Offer.room?, Offer.entry?, hr]
      rfl
    | some places =>
      simp only [Offer.tally, Offer.room?, Offer.entry?, hr]
      rfl
  | invalidate key => exact Store.erase_counters st.store key
  | clear => rfl
  | purge =>
    have hcount := (Store.purge_entries hs st.now).2
    have hkept := Store.purgeFrom_counters st.now st.store.index st.store
    simp only [Store.purge] at hcount
    simp only [step, St.purge, Store.purge, hcount, hkept]
    rfl
  | advance ms => rfl
  | fetch key ttl job =>
    have ha := Store.ask_counters st.store key st.now
    simp only [step, St.fetch]
    split <;> exact ha
  | leave caller => rfl
  | resume caller =>
    simp only [step, St.resume]
    split <;> rfl
  | begin fill =>
    simp only [step, St.begin]
    split <;> rfl
  | finish fill outcome => exact finish_counters c hs fill outcome
  | crash fill => exact crash_counters st fill
  | tell fill =>
    simp only [step, St.tell]
    split <;> rfl
  | discard fill =>
    simp only [step, St.discard]
    split
    · rfl
    · exact crash_counters st fill
    · rfl

end

end ChainBridge.Cache
