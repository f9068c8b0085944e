/-
A cache whose values all come from fills wastes none of its bytes.

No stored key is being filled there, so nothing is passed over when room is made. The victims of an offer are then a
front part of the order of expiry (`Wf.victims_front`), and what has expired stands in front of what has not. So as long
as anything expired is left, nothing alive has to go (`Tidy.expired_first`), and a value is turned away only if it would
not fit into an empty cache (`Tidy.rejected_iff`). What is counted as evictions are the live entries that an act takes
out to make room (`evictions_iff`).
-/
import Mathlib
import ChainBridge.Proofs.Cache.Counters
import ChainBridge.Proofs.Cache.Sweeping

namespace ChainBridge.Cache

variable {K V E J : Type}

theorem Place.before_of_expired {p q : Place K} {now : Nat} (hq : isExpired q.expiresAt now = true)
    (hp : isExpired p.expiresAt now = false) : q.Before p := by
  simp only [isExpired, decide_eq_true_eq, decide_eq_false_iff_not] at hq hp
  exact .inl (by omega)

variable [DecidableEq K]

/-- a key that is not marked has no fill under way -/
theorem Single.not_isFilling {st : St K V E J} (h : Single st) {key : K} (hn : st.store.filling? key = none) :
    st.isFilling key = false := by
  refine Bool.eq_false_iff.2 fun hfilling => ?_
  obtain ⟨f, hf, hkey, hway⟩ := St.isFilling_iff.1 hfilling
  have hheld := h.not_holds hn hf hkey
  cases hstage : f.stage <;> simp [hstage, Stage.holds, Stage.isUnderWay] at hheld hway

variable [Footprint K] [Footprint V]

/-- what stands before a victim is a victim too -/
theorem Store.Wf.victims_front {s : Store K V} (h : Wf s) (hv : s.Vacant) {max size : Nat} {key : K} {p q : Place K}
    (hp : p ∈ s.victims max size key) (hq : q ∈ (s.erase key).index) (hbefore : q.Before p) :
    q ∈ s.victims max size key := by
  obtain ⟨hle, rest, ⟨front, hindex⟩, hmore⟩ := (h.mem_victims_iff hv max size key p).1 hp
  have hsorted := (h.erase key).sorted
  rw [← hindex] at hsorted hq
  have hfront : q ∈ front := by
    rcases List.mem_append.1 hq with hq | hq
    · exact hq
    · rcases List.mem_cons.1 hq with rfl | hq
      · exact (hbefore.asymm hbefore).elim
      · have hlater := (List.pairwise_cons.1 (List.pairwise_append.1 hsorted).2.1).1 q hq
        exact (hbefore.asymm hlater).elim
  obtain ⟨l, r, rfl⟩ := List.append_of_mem hfront
  refine (h.mem_victims_iff hv max size key q).2 ⟨hle, r ++ p :: rest, ⟨l, by simpa using hindex⟩, ?_⟩
  -- behind an earlier place there are no fewer bytes
  have hsuffix : (p :: rest).Sublist (q :: (r ++ p :: rest)) := (List.suffix_append (q :: r) (p :: rest)).sublist
  have hbytes := (hsuffix.map (s.erase key).sizeAt).sum_le_sum fun _ _ => Nat.zero_le _
  omega

/-! ## Evictions -/

/-- whether an act takes out a live entry to make room for a value of another key -/
def Evicts (c : Setup) (st : St K V E J) (act : Act K V E J) (e : Entry K V) : Prop :=
  ∃ o, act.offer? c st = some o ∧ e ∈ st.store.live st.now ∧ e.key ≠ o.key ∧ e ∉ (step c st act).store.entries

section

variable {c : Setup} {st : St K V E J} {act : Act K V E J}

/-- what an act stores has a number of its own -/
theorem not_mem_adds (hs : st.store.Wf) {e : Entry K V} (he : e ∈ st.store.entries) : e ∉ act.adds c st := by
  intro hadds
  obtain ⟨key, value, ttl, -, hnew⟩ := mem_adds_iff.1 hadds
  have hle := hs.recent e he
  have hseq : e.seq = st.store.nextSeq + 1 := congrArg Entry.seq hnew
  omega

/-- an entry is evicted if it is alive and stands at a victim -/
theorem evicts_iff (hs : st.store.Wf) {o : Offer K V} (ho : act.offer? c st = some o) {e : Entry K V} :
    Evicts c st act e ↔ e ∈ st.store.live st.now ∧ e.key ≠ o.key ∧ e.place ∈ o.victims c := by
  have hgone : ∀ e ∈ st.store.entries, e ∉ (step c st act).store.entries ↔ act.spares c st e = false := by
    intro e he
    rw [(step_edits c hs act).entries, List.mem_append, List.mem_filter]
    simp [he, not_mem_adds hs he]
  constructor
  · rintro ⟨o', ho', hlive, hkey, hout⟩
    obtain rfl := Option.some.inj (ho.symm.trans ho')
    have hspared := (hgone e (Store.mem_live_iff.1 hlive).1).1 hout
    rw [Act.spares_of_offer ho] at hspared
    exact ⟨hlive, hkey, by simpa [hkey] using hspared⟩
  · rintro ⟨hlive, hkey, hvictim⟩
    refine ⟨o, ho, hlive, hkey, (hgone e (Store.mem_live_iff.1 hlive).1).2 ?_⟩
    rw [Act.spares_of_offer ho]
    simp [hvictim]

/-- a victim is the place of an entry of another key -/
theorem Offer.victim_entry (hs : st.store.Wf) {o : Offer K V} (ho : act.offer? c st = some o) {p : Place K}
    (hp : p ∈ o.victims c) : ∃ e ∈ st.store.entries, e.place = p ∧ e.key ≠ o.key := by
  cases hr : o.books.room? c.policy.maxSize (entrySize o.key o.value) o.key with
  | none =>
    rw [Offer.victims, Store.victims_of_no_room hr] at hp
    exact absurd hp List.not_mem_nil
  | some places =>
    rw [Offer.victims, Store.victims_of_room? hr] at hp
    obtain ⟨e, he, rfl⟩ :=
      List.mem_map.1 (((Offer.books_wf hs ho).erase o.key).listed.mem_iff.1 ((Store.room?_sublist hr).subset hp))
    rw [Store.erase_entries, (Offer.books_entries ho).1] at he
    obtain ⟨hmem, hkey⟩ := List.mem_filter.1 he
    exact ⟨e, hmem, rfl, by simpa using hkey⟩

/-- more evictions are counted if and only if something alive is evicted -/
theorem evictions_iff (c : Setup) (hs : st.store.Wf) (act : Act K V E J) :
    st.store.counters.evictions < (step c st act).store.counters.evictions ↔ ∃ e, Evicts c st act e := by
  rw [step_counters c hs act]
  cases ho : act.offer? c st with
  | none =>
    obtain ⟨-, hnone, -⟩ := Act.tally_of_no_offer ho
    simp [Counters.plus, hnone, Evicts, ho]
  | some o =>
    have hcount : (act.tally c st).evictions = (o.victims c).countP fun p => !isExpired p.expiresAt st.now := by
      rw [Act.tally_of_offer ho, Offer.tally, Offer.victims, Store.victims, ← Offer.room?]
      cases o.room? c <;> rfl
    simp only [Counters.plus, hcount, Nat.lt_add_right_iff_pos, List.countP_pos_iff]
    constructor
    · rintro ⟨p, hp, hlive⟩
      obtain ⟨e, he, rfl, hkey⟩ := Offer.victim_entry hs ho hp
      exact ⟨e, (evicts_iff hs ho).2 ⟨Store.mem_live_iff.2 ⟨he, by simpa [Entry.place] using hlive⟩, hkey, hp⟩⟩
    · rintro ⟨e, hevicts⟩
      obtain ⟨hlive, -, hp⟩ := (evicts_iff hs ho).1 hevicts
      exact ⟨e.place, hp, by simpa [Entry.place] using (Store.mem_live_iff.1 hlive).2⟩

/-! ## Where no stored key is being filled -/

/-- when something alive is evicted, all that had expired goes too -/
theorem Tidy.expired_first (hs : Tidy st) {e : Entry K V} (he : Evicts c st act e) :
    ∀ e' ∈ (step c st act).store.entries, isExpired e'.expiresAt st.now = true → e' ∈ act.adds c st := by
  intro e' he' hexp
  obtain ⟨o, ho, -⟩ := id he
  obtain ⟨hlive, -, hvictim⟩ := (evicts_iff hs.wf ho).1 he
  rw [(step_edits c hs.wf act).entries, List.mem_append, List.mem_filter, Act.spares_of_offer ho] at he'
  rcases he' with ⟨hmem, hspared⟩ | hadds
  · obtain ⟨hkey, hkept⟩ := of_decide_eq_true hspared
    have hwf : o.books.Wf := Offer.books_wf hs.wf ho
    have hplace : e'.place ∈ (o.books.erase o.key).index := by
      refine (hwf.erase o.key).place_mem ?_
      rw [Store.erase_entries, (Offer.books_entries ho).1]
      exact List.mem_filter.2 ⟨hmem, by simpa using hkey⟩
    have hbefore : e'.place.Before e.place := Place.before_of_expired hexp (Store.mem_live_iff.1 hlive).2
    exact absurd (hwf.victims_front (Offer.books_vacant hs.vacant ho) hvictim hplace hbefore) hkept
  · exact hadds

/-- an act counts a rejection if and only if what it offers would not fit into an empty cache -/
theorem Tidy.rejected_iff (hs : Tidy st) :
    st.store.counters.rejected < (step c st act).store.counters.rejected ↔
      ∃ o, act.offer? c st = some o ∧ c.policy.maxSize < entrySize o.key o.value := by
  rw [step_counters c hs.wf act]
  cases ho : act.offer? c st with
  | none =>
    obtain ⟨-, -, hnone⟩ := Act.tally_of_no_offer ho
    simp [Counters.plus, hnone]
  | some o =>
    have hroom := hs.room?_isSome_iff ho
    rw [Act.tally_of_offer ho, Offer.tally]
    cases hr : o.room? c with
    | none =>
      rw [hr] at hroom
      simpa [Counters.plus, Store.roomTally, Counters.zero] using hroom
    | some places =>
      rw [hr] at hroom
      simpa [Counters.plus, Store.roomTally, Counters.zero] using hroom

/-- the value of a running fill is kept if and only if it would fit into an empty cache -/
theorem Tidy.finish_find? (hs : Tidy st) {f : Fill K V E J} (hf : st.fill? f.id = some f) (hrun : f.stage = .running)
    (v : V) :
    (st.finish c f.id (.ok v)).store.find? f.key =
      if entrySize f.key v ≤ c.policy.maxSize then
        some ⟨f.key, v, st.now, st.now + f.ttl.getD c.policy.defaultTtl, st.store.nextSeq + 1, entrySize f.key v⟩
      else none := by
  obtain ⟨id, key, ttl, job, stage⟩ := f
  subst hrun
  have ho : (Act.finish id (.ok v) : Act K V E J).offer? c st =
      some ⟨st.store.release key id, key, v, some (ttl.getD c.policy.defaultTtl)⟩ := by
    simp only [Act.offer?, hf]
  have hroom := hs.room?_isSome_iff ho
  split
  · rename_i hfits
    exact (writes_iff.2 ⟨_, ho, rfl, rfl, rfl, hroom.2 hfits⟩ : Writes c st _ key v _).find? hs.wf
  · rename_i hfits
    have hadds : (Act.finish id (.ok v) : Act K V E J).adds c st = [] := by
      simp only [Act.adds, ho, Option.bind_some, Offer.entry?, if_neg fun h => hfits (hroom.1 h), Option.toList_none]
    refine Store.find?_eq_none_of fun e he => ?_
    have hedits : (st.finish c id (.ok v)).store.entries = _ := (step_edits c hs.wf (.finish id (.ok v))).entries
    rw [hedits, hadds, List.append_nil, List.mem_filter, Act.spares_of_offer ho] at he
    exact (of_decide_eq_true he.2).1

end

/-- **No byte is wasted.** After any sequence of acts in which nothing is stored directly, no stored key is marked or
has a fill under way. Whatever comes next, a value is counted as rejected only if by itself it takes more than the whole
cache may; the value of a running fill is stored if it does not. And an eviction is counted just when a live entry of
another key has been taken out to make room, and then nothing that has expired is left but what the act itself stored.
-/
theorem no_waste (c : Setup) (acts : List (Act K V E J)) (h : ∀ key value ttl, Act.set key value ttl ∉ acts) :
    let st : St K V E J := run c .new acts
    (∀ e ∈ st.store.entries, st.store.isPending e.key = false ∧ st.isFilling e.key = false) ∧
    (∀ f ∈ st.fills, f.stage = .running → ∀ v,
      (st.finish c f.id (.ok v)).store.find? f.key =
        if entrySize f.key v ≤ c.policy.maxSize then
          some ⟨f.key, v, st.now, st.now + f.ttl.getD c.policy.defaultTtl, st.store.nextSeq + 1, entrySize f.key v⟩
        else none) ∧
    ∀ act : Act K V E J,
      (st.store.counters.rejected < (step c st act).store.counters.rejected ↔
        ∃ o, act.offer? c st = some o ∧ c.policy.maxSize < entrySize o.key o.value) ∧
      (st.store.counters.evictions < (step c st act).store.counters.evictions ↔ ∃ e, Evicts c st act e) ∧
      ∀ e, Evicts c st act e →
        ∀ e' ∈ (step c st act).store.entries, isExpired e'.expiresAt st.now = true → e' ∈ act.adds c st := by
  intro st
  have hs : Tidy st := run_tidy c h
  refine ⟨fun e he => ?_, fun f hf hrun v => hs.finish_find? (fill?_of_mem hs.single.ids hf) hrun v,
    fun act => ⟨hs.rejected_iff, evictions_iff c hs.wf act, fun e he => hs.expired_first he⟩⟩
  have hfree := hs.vacant e he
  refine ⟨?_, hs.single.not_isFilling hfree⟩
  rw [Store.isPending, Store.marker?_eq_none_iff.2 hfree, Option.isSome_none]

/-- a third value that leaves room for no other is kept; for it the second entry goes, which is alive, and with it
the first, which has expired -/
theorem thirdFill_evicts :
    let st := run .narrow .new (thirdFill [])
    let act : Act Nat Nat String Unit := .finish 3 (.ok (2 ^ 200))
    (∀ key value ttl, Act.set key value ttl ∉ thirdFill []) ∧
    st.store.entries.map (fun e => (e.key, isExpired e.expiresAt st.now)) = [(1, true), (2, false)] ∧
    (∃ e, Evicts .narrow st act e) ∧
    ∀ e' ∈ (step .narrow st act).store.entries, isExpired e'.expiresAt st.now = true → e' ∈ act.adds .narrow st := by
  intro st act
  have hacts : ∀ key value ttl, Act.set key value ttl ∉ thirdFill [] := by simp [thirdFill]
  have hst : run .narrow .new (thirdFill []) = st := rfl
  obtain ⟨-, -, hnext⟩ := no_waste .narrow (thirdFill []) hacts
  rw [hst] at hnext
  obtain ⟨-, hcounted, hlast⟩ := hnext act
  obtain ⟨e, he⟩ := hcounted.1 (by decide)
  exact ⟨hacts, by decide, ⟨e, he⟩, hlast e he⟩

end ChainBridge.Cache
