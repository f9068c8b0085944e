/-
When a cache is swept makes no difference to those that use it.

A sweep takes out what has expired and so was served no more, but it also frees bytes and shortens the index, and where
a plan stops depends on both. Two caches are `Alike` if they hold the same live entries and the same fills, markers and
callers at the same instant, whatever expired entries either still keeps. A place that has not expired has none behind
it that has, and whether a plan takes it depends on the bytes at and behind it alone (`Wf.mem_victims_iff`). So alike
caches take the same live victims, and they stay alike whatever act both of them take (`Alike.step`), while a cache is
alike to itself after a sweep (`alike_purge`). All of this is for values that come from fills: a value that is stored
directly under a key that is being filled could not be taken out to make room, so an expired one would matter.
-/
import Mathlib
import ChainBridge.Proofs.Cache.Traffic
import ChainBridge.Proofs.Cache.Vacancy

namespace ChainBridge.Cache

variable {K V E J : Type}

/-! ## Live entries -/

namespace Store

/-- the entries that have not expired -/
def live (s : Store K V) (now : Nat) : List (Entry K V) := s.entries.filter fun e => !isExpired e.expiresAt now

/-- the places that have not expired -/
def liveIndex (s : Store K V) (now : Nat) : List (Place K) := s.index.filter fun p => !isExpired p.expiresAt now

theorem mem_live_iff {s : Store K V} {now : Nat} {e : Entry K V} :
    e ∈ s.live now ↔ e ∈ s.entries ∧ isExpired e.expiresAt now = false := by
  simp [live]

end Store

theorem Place.Before.asymm {p q : Place K} (h : p.Before q) (h' : q.Before p) : False := by
  simp only [Place.Before] at h h'
  omega

/-- behind a place that has not expired nothing has -/
theorem filter_live {p : Place K} {l : List (Place K)} {now : Nat} (h : (p :: l).Pairwise Place.Before)
    (hp : isExpired p.expiresAt now = false) : (p :: l).filter (fun p => !isExpired p.expiresAt now) = p :: l := by
  refine List.filter_eq_self.2 fun q hq => ?_
  rcases List.mem_cons.1 hq with rfl | hq
  · simp [hp]
  · have hle := ((List.pairwise_cons.1 h).1 q hq).le
    simp only [isExpired, decide_eq_false_iff_not, Bool.not_eq_true', Nat.not_le] at hp ⊢
    omega

/-- the live places stand behind the others -/
theorem live_suffix {l : List (Place K)} (h : l.Pairwise Place.Before) (now : Nat) :
    (l.filter fun p => !isExpired p.expiresAt now) <:+ l := by
  induction l with
  | nil => exact List.suffix_refl _
  | cons p l ih =>
    cases hp : isExpired p.expiresAt now with
    | true =>
      rw [List.filter_cons_of_neg (by simp [hp])]
      exact (ih (List.pairwise_cons.1 h).2).trans (List.suffix_cons p l)
    | false => rw [filter_live h hp]

/-- what stands at and behind a live place can be told from the live places -/
theorem suffix_live_iff {l rest : List (Place K)} {p : Place K} {now : Nat} (h : l.Pairwise Place.Before)
    (hp : isExpired p.expiresAt now = false) :
    (p :: rest) <:+ l ↔ (p :: rest) <:+ l.filter fun p => !isExpired p.expiresAt now := by
  constructor
  · intro hsuffix
    have hfiltered := hsuffix.filter fun p => !isExpired p.expiresAt now
    rw [filter_live (h.sublist hsuffix.sublist) hp] at hfiltered
    exact hfiltered
  · exact fun hsuffix => hsuffix.trans (live_suffix h now)

namespace Store

theorem live_erase [DecidableEq K] (s : Store K V) (key : K) (now : Nat) :
    (s.erase key).live now = (s.live now).filter fun e => decide (e.key ≠ key) := by
  rw [live, erase_entries, List.filter_comm, live]

variable {s s' : Store K V} {now : Nat} [Footprint K] [Footprint V]

/-- the live places are those of the live entries -/
theorem Wf.liveIndex_perm (h : Wf s) (now : Nat) : (s.liveIndex now).Perm ((s.live now).map Entry.place) := by
  refine (h.listed.filter fun p => !isExpired p.expiresAt now).trans ?_
  rw [List.filter_map]
  exact List.Perm.refl _

/-- books with the same live entries have the same live places, in one order -/
theorem Wf.liveIndex_eq (h : Wf s) (h' : Wf s') (hlive : s'.live now = s.live now) :
    s'.liveIndex now = s.liveIndex now := by
  have hperm : (s'.liveIndex now).Perm (s.liveIndex now) := by
    refine (h'.liveIndex_perm now).trans ?_
    rw [hlive]
    exact (h.liveIndex_perm now).symm
  exact hperm.eq_of_pairwise (fun p q _ _ hpq hqp => (hpq.asymm hqp).elim) (h'.sorted.sublist List.filter_sublist)
    (h.sorted.sublist List.filter_sublist)

variable [DecidableEq K]

theorem Wf.find?_of_live (h : Wf s) {e : Entry K V} (he : e ∈ s.live now) : s.find? e.key = some e :=
  find?_of_mem h.keys (mem_live_iff.1 he).1

/-- behind a live place stands the same in books with the same live entries -/
theorem Wf.sizeAt_of_live (h : Wf s) (h' : Wf s') (hlive : s'.live now = s.live now) {p : Place K}
    (hp : p ∈ s.liveIndex now) : s'.sizeAt p = s.sizeAt p := by
  obtain ⟨e, he, rfl⟩ := List.mem_map.1 ((h.liveIndex_perm now).mem_iff.1 hp)
  have hf : s.find? e.place.key = some e := h.find?_of_live he
  have hf' : s'.find? e.place.key = some e := h'.find?_of_live (hlive ▸ he)
  rw [sizeAt, hf', sizeAt, hf]

/-- books with the same live entries have the same live victims, if no stored key is being filled in either -/
theorem Wf.mem_victims_of_live (h : Wf s) (h' : Wf s') (hv : s.Vacant) (hv' : s'.Vacant)
    (hlive : s'.live now = s.live now) {max size : Nat} {key : K} {p : Place K}
    (hp : isExpired p.expiresAt now = false) (hmem : p ∈ s.victims max size key) : p ∈ s'.victims max size key := by
  have hw := h.erase key
  have hw' := h'.erase key
  have herased : (s'.erase key).live now = (s.erase key).live now := by rw [live_erase, live_erase, hlive]
  obtain ⟨hle, rest, hsuffix, hmore⟩ := (h.mem_victims_iff hv max size key p).1 hmem
  have hlives : (p :: rest) <:+ (s.erase key).liveIndex now := (suffix_live_iff hw.sorted hp).1 hsuffix
  have hsizes : (p :: rest).map (s'.erase key).sizeAt = (p :: rest).map (s.erase key).sizeAt :=
    List.map_congr_left fun q hq => hw.sizeAt_of_live hw' herased (hlives.subset hq)
  refine (h'.mem_victims_iff hv' max size key p).2 ⟨hle, rest, (suffix_live_iff hw'.sorted hp).2 ?_, ?_⟩
  · have hindex := hw.liveIndex_eq hw' herased
    rw [Store.liveIndex] at hindex
    rw [hindex]
    exact hlives
  · rw [hsizes]
    exact hmore

end Store

/-! ## Alike caches -/

/-- the same live entries, fills, markers and callers at the same instant -/
structure Alike (st st' : St K V E J) : Prop where
  now : st'.now = st.now
  live : st'.store.live st.now = st.store.live st.now
  nextSeq : st'.store.nextSeq = st.store.nextSeq
  traffic : st'.traffic = st.traffic

theorem Alike.symm {st st' : St K V E J} (h : Alike st st') : Alike st' st :=
  ⟨h.now.symm, by rw [h.now, h.live], h.nextSeq.symm, h.traffic.symm⟩

theorem Alike.trans {st st' st'' : St K V E J} (h : Alike st st') (h' : Alike st' st'') : Alike st st'' :=
  ⟨h'.now.trans h.now, by rw [← h.live, ← h.now, h'.live], h'.nextSeq.trans h.nextSeq, h'.traffic.trans h.traffic⟩

variable [DecidableEq K] [Footprint K] [Footprint V]

/-- the books are in order, each key has one fill at a time, and none that is stored has any -/
structure Tidy (st : St K V E J) : Prop where
  wf : st.store.Wf
  single : Single st
  vacant : st.store.Vacant

theorem run_tidy (c : Setup) {acts : List (Act K V E J)} (h : ∀ key value ttl, Act.set key value ttl ∉ acts) :
    Tidy (run c (.new : St K V E J) acts) :=
  ⟨run_wf c acts, run_single c acts, run_vacant c acts h⟩

/-- a sweep changes nothing but what has expired -/
theorem alike_purge (c : Setup) {st : St K V E J} (hs : st.store.Wf) : Alike st (st.purge c).1 where
  now := rfl
  live := by
    have hentries : (st.purge c).1.store.entries = _ := (Store.purge_entries hs st.now).1
    rw [Store.live, hentries, List.filter_filter]
    simp [Store.live]
  nextSeq := Store.purge_nextSeq st.store st.now
  traffic := traffic_eq_iff.2 ⟨rfl, Store.purge_marks st.store st.now, rfl, rfl⟩

namespace Alike

variable {c : Setup} {st st' : St K V E J} {act : Act K V E J} {key : K} {value : V} {ttl : Nat}

/-- a key that is found alive in one is found alive in the other -/
theorem find? (h : Alike st st') (hs' : st'.store.Wf) {e : Entry K V} (hf : st.store.find? key = some e)
    (hlive : isExpired e.expiresAt st.now = false) : st'.store.find? key = some e := by
  obtain ⟨he, rfl⟩ := Store.find?_some hf
  have hmem : e ∈ st'.store.live st.now := h.live ▸ Store.mem_live_iff.2 ⟨he, hlive⟩
  exact hs'.find?_of_live hmem

theorem lookup_hit (h : Alike st st') (hs' : st'.store.Wf) (hv : (st.store.lookup key st.now).2 = .hit value) :
    (st'.store.lookup key st'.now).2 = .hit value := by
  obtain ⟨e, hf, hlive, hvalue⟩ := Store.lookup_hit_iff.1 hv
  exact Store.lookup_hit_iff.2 ⟨e, h.find? hs' hf hlive, h.now ▸ hlive, hvalue⟩

/-- alike caches find the same -/
theorem lookup_hit_iff (h : Alike st st') (hs : st.store.Wf) (hs' : st'.store.Wf) :
    (st'.store.lookup key st'.now).2 = .hit value ↔ (st.store.lookup key st.now).2 = .hit value :=
  ⟨h.symm.lookup_hit hs, h.lookup_hit hs'⟩

omit [Footprint K] [Footprint V] in
theorem filling? (h : Alike st st') (key : K) : st'.store.filling? key = st.store.filling? key :=
  Store.filling?_congr (traffic_eq_iff.1 h.traffic).2.1 key

/-- alike caches admit a caller alike -/
theorem admits (h : Alike st st') (hs : st.store.Wf) (hs' : st'.store.Wf) {lifetime : Option Nat} {job : J}
    {ticket : Ticket V} {fills : List (Fill K V E J)} {marks : List (Marker K) × Nat}
    (ha : Admits st key lifetime job ticket fills marks) : Admits st' key lifetime job ticket fills marks := by
  obtain ⟨hfills, hmarks, -, -⟩ := traffic_eq_iff.1 h.traffic
  obtain ⟨hpending, hnext⟩ := Prod.mk.inj hmarks
  have hmiss : (∀ v, (st.store.lookup key st.now).2 ≠ .hit v) → ∀ v, (st'.store.lookup key st'.now).2 ≠ .hit v :=
    fun hno v hv => hno v ((h.lookup_hit_iff hs hs').1 hv)
  cases ha with
  | hit v hv =>
    rw [← hfills, ← hmarks]
    exact .hit v (h.lookup_hit hs' hv)
  | join fill hno hfilling =>
    rw [← hfills, ← hmarks]
    exact .join fill (hmiss hno) ((h.filling? key).trans hfilling)
  | lead hno hfree =>
    rw [← hfills, ← hpending, ← hnext, ← h.now]
    exact .lead (hmiss hno) ((h.filling? key).trans hfree)

theorem fetch_traffic (h : Alike st st') (hs : st.store.Wf) (hs' : st'.store.Wf) (c : Setup) (key : K)
    (lifetime : Option Nat) (job : J) :
    (st'.fetch c key lifetime job).1.traffic = (st.fetch c key lifetime job).1.traffic := by
  obtain ⟨-, -, hcallers, hnext⟩ := traffic_eq_iff.1 h.traffic
  obtain ⟨ticket, ha, hjoined⟩ := fetch_admits c st key lifetime job
  obtain ⟨ticket', ha', hjoined'⟩ := fetch_admits c st' key lifetime job
  obtain ⟨rfl, hfills, hmarks⟩ := (h.admits hs hs' ha).unique ha'
  refine traffic_eq_iff.2 ⟨hfills.symm, hmarks.symm, ?_, ?_⟩
  · rw [hjoined, hjoined', hcallers, hnext]
  · rw [(fetch_caller c st' key lifetime job).2, (fetch_caller c st key lifetime job).2, hnext]

/-! ## Offers to alike caches -/

omit [Footprint K] [Footprint V] in
/-- alike caches are offered the same -/
theorem offer? (h : Alike st st') {o : Offer K V} (ho : act.offer? c st = some o) :
    ∃ o', act.offer? c st' = some o' ∧ o'.key = o.key ∧ o'.value = o.value ∧ o'.ttl = o.ttl := by
  have hfill : ∀ id, st'.fill? id = st.fill? id := fill?_congr (traffic_eq_iff.1 h.traffic).1
  unfold Act.offer? at ho
  split at ho
  · obtain rfl := Option.some.inj ho
    exact ⟨_, rfl, rfl, rfl, rfl⟩
  · obtain rfl := Option.some.inj ho
    exact ⟨_, rfl, rfl, rfl, rfl⟩
  · split at ho
    · rename_i fill value _ i key ttl job hf
      obtain rfl := Option.some.inj ho
      refine ⟨⟨st'.store.release key fill, key, value, some (ttl.getD c.policy.defaultTtl)⟩, ?_, rfl, rfl, rfl⟩
      simp only [Act.offer?, hfill, hf]
    · exact absurd ho (by simp)
  · exact absurd ho (by simp)

end Alike

omit [Footprint K] [Footprint V] in
theorem Offer.books_vacant {c : Setup} {st : St K V E J} (hv : st.store.Vacant) {act : Act K V E J} {o : Offer K V}
    (h : act.offer? c st = some o) : o.books.Vacant := by
  rcases Offer.books_eq h with he | ⟨key, fill, he⟩
  · rw [he]
    exact hv
  · rw [he]
    exact hv.release key fill

/-- there is room for whatever would fit into an empty cache -/
theorem Tidy.room?_isSome_iff {c : Setup} {st : St K V E J} (hs : Tidy st) {act : Act K V E J} {o : Offer K V}
    (ho : act.offer? c st = some o) : (o.room? c).isSome = true ↔ entrySize o.key o.value ≤ c.policy.maxSize :=
  (Offer.books_wf hs.wf ho).room?_isSome_iff (Offer.books_vacant hs.vacant ho) _ _ o.key

namespace Alike

variable {c : Setup} {st st' : St K V E J} {act : Act K V E J} {key : K} {value : V} {ttl : Nat}

/-- alike caches store the same and turn the same away -/
theorem writes (h : Alike st st') (hs : Tidy st) (hs' : Tidy st') (hw : Writes c st act key value ttl) :
    Writes c st' act key value ttl := by
  obtain ⟨o, ho, rfl, rfl, httl, hroom⟩ := writes_iff.1 hw
  obtain ⟨o', ho', hkey, hvalue, httl'⟩ := h.offer? ho
  refine writes_iff.2 ⟨o', ho', hkey, hvalue, httl'.trans httl, (hs'.room?_isSome_iff ho').2 ?_⟩
  rw [hkey, hvalue]
  exact (hs.room?_isSome_iff ho).1 hroom

theorem adds (h : Alike st st') (hs : Tidy st) (hs' : Tidy st') : act.adds c st' = act.adds c st := by
  cases hadds : act.adds c st with
  | nil =>
    refine List.eq_nil_iff_forall_not_mem.2 fun e he => ?_
    obtain ⟨key, value, ttl, hw, -⟩ := mem_adds_iff.1 he
    rw [(h.symm.writes hs' hs hw).adds] at hadds
    exact absurd hadds (by simp)
  | cons e rest =>
    obtain ⟨key, value, ttl, hw, -⟩ := mem_adds_iff.1 (hadds ▸ List.mem_cons_self : e ∈ act.adds c st)
    rw [← hadds, hw.adds, (h.writes hs hs' hw).adds, h.now, h.nextSeq]

theorem hasRoom (h : Alike st st') (hs : Tidy st) (hs' : Tidy st') (hr : act.hasRoom c st = true) :
    act.hasRoom c st' = true := by
  cases ho : act.offer? c st with
  | none => exact absurd hr (by simp [Act.hasRoom, ho])
  | some o =>
    obtain ⟨o', ho', hkey, hvalue, -⟩ := h.offer? ho
    rw [Act.hasRoom, ho, Option.bind_some, hs.room?_isSome_iff ho] at hr
    rw [Act.hasRoom, ho', Option.bind_some, hs'.room?_isSome_iff ho', hkey, hvalue]
    exact hr

/-- alike caches oust the same -/
theorem ousts (h : Alike st st') (hs : Tidy st) (hs' : Tidy st') (hout : Ousts c st act key) :
    Ousts c st' act key := by
  cases hout with
  | invalidate _ => exact .invalidate key
  | clear _ => exact .clear key
  | attempt _ o ho =>
    obtain ⟨o', ho', hkey, -, -⟩ := h.offer? ho
    rw [← hkey]
    exact .attempt act o' ho'
  | evict _ o p ho hp hlive =>
    obtain ⟨o', ho', hkey, hvalue, -⟩ := h.offer? ho
    have hbooks : o'.books.live st.now = o.books.live st.now := by
      rw [Store.live, (Offer.books_entries ho').1, Store.live, (Offer.books_entries ho).1]
      exact h.live
    refine .evict act o' p ho' ?_ (h.now ▸ hlive)
    rw [Offer.victims, hkey, hvalue]
    exact (Offer.books_wf hs.wf ho).mem_victims_of_live (Offer.books_wf hs'.wf ho') (Offer.books_vacant hs.vacant ho)
      (Offer.books_vacant hs'.vacant ho') hbooks hlive hp

/-- alike caches spare the same of what is alive -/
theorem spares (h : Alike st st') (hs : Tidy st) (hs' : Tidy st') {e : Entry K V} (he : e ∈ st.store.live st.now) :
    act.spares c st' e = act.spares c st e := by
  obtain ⟨hmem, hlive⟩ := Store.mem_live_iff.1 he
  have hmem' : e ∈ st'.store.entries := (Store.mem_live_iff.1 (h.live ▸ he)).1
  by_cases hout : Ousts c st act e.key
  · rw [hout.not_spared hs.wf hmem, (h.ousts hs hs' hout).not_spared hs'.wf hmem']
  · have hout' : ¬Ousts c st' act e.key := fun hno => hout (h.symm.ousts hs' hs hno)
    rw [Act.spares_of_not_ousts hlive hout, Act.spares_of_not_ousts (h.now ▸ hlive) hout']

end Alike

/-- what is alive after an act was alive before it and is spared, or is added -/
theorem step_live (c : Setup) {st : St K V E J} (hs : st.store.Wf) (act : Act K V E J) :
    (step c st act).store.live (step c st act).now =
      ((st.store.live st.now).filter (act.spares c st) ++ act.adds c st).filter
        fun e => !isExpired e.expiresAt (step c st act).now := by
  have hnow : st.now ≤ (step c st act).now := by
    rw [step_now]
    exact Nat.le_add_right _ _
  rw [Store.live, (step_edits c hs act).entries, List.filter_append, List.filter_append]
  refine congrArg₂ (· ++ ·) ?_ rfl
  rw [Store.live, List.filter_filter, List.filter_filter, List.filter_filter]
  refine List.filter_congr fun e _ => ?_
  cases hexp : isExpired e.expiresAt (step c st act).now with
  | true => simp
  | false =>
    have hbefore : isExpired e.expiresAt st.now = false := by
      simp only [isExpired, decide_eq_false_iff_not, Nat.not_le] at hexp ⊢
      omega
    simp [hbefore]

/-- alike caches stay alike when both take one act -/
theorem Alike.step (c : Setup) {st st' : St K V E J} (h : Alike st st') (hs : Tidy st) (hs' : Tidy st')
    (act : Act K V E J) : Alike (step c st act) (step c st' act) := by
  have hnow : (Cache.step c st' act).now = (Cache.step c st act).now := by rw [step_now, step_now, h.now]
  refine ⟨hnow, ?_, ?_, ?_⟩
  · have hspares : (st.store.live st.now).filter (act.spares c st') = (st.store.live st.now).filter (act.spares c st) :=
      List.filter_congr fun e he => h.spares hs hs' he
    rw [step_live c hs.wf, ← hnow, step_live c hs'.wf, hnow, h.now, h.live, hspares, h.adds hs hs']
  · have hroom : act.hasRoom c st' = act.hasRoom c st :=
      Bool.eq_iff_iff.2 ⟨h.symm.hasRoom hs' hs, h.hasRoom hs hs'⟩
    rw [(step_edits c hs.wf act).nextSeq, (step_edits c hs'.wf act).nextSeq, hroom, h.nextSeq]
  · by_cases hfetch : ∃ key ttl job, act = .fetch key ttl job
    · obtain ⟨key, ttl, job, rfl⟩ := hfetch
      exact h.fetch_traffic hs.wf hs'.wf c key ttl job
    · exact step_traffic c h.traffic fun key ttl job he => hfetch ⟨key, ttl, job, he⟩

/-! ## Runs with and without sweeps -/

def Act.isPurge : Act K V E J → Bool
  | .purge => true
  | _ => false

/-- a run without its sweeps -/
def unswept (acts : List (Act K V E J)) : List (Act K V E J) := acts.filter fun act => !act.isPurge

theorem run_unswept (c : Setup) (acts : List (Act K V E J)) (h : ∀ key value ttl, Act.set key value ttl ∉ acts) :
    Alike (run c (.new : St K V E J) acts) (run c .new (unswept acts)) := by
  induction acts using List.reverseRecOn with
  | nil => exact ⟨rfl, rfl, rfl, rfl⟩
  | append_singleton acts act ih =>
    have hacts : ∀ key value ttl, Act.set key value ttl ∉ acts :=
      fun key value ttl hm => h key value ttl (List.mem_append_left _ hm)
    have hunswept : ∀ key value ttl, Act.set key value ttl ∉ unswept acts :=
      fun key value ttl hm => hacts key value ttl (List.mem_filter.1 hm).1
    rw [run_snoc, unswept, List.filter_append]
    cases hpurge : act.isPurge with
    | true =>
      have hact : act = .purge := by
        cases act <;> first | rfl | exact absurd hpurge (by simp [Act.isPurge])
      subst hact
      rw [List.filter_cons_of_neg (by simp [hpurge]), List.filter_nil, List.append_nil]
      exact (alike_purge c (run_wf c acts)).symm.trans (ih hacts)
    | false =>
      rw [List.filter_cons_of_pos (by simp [hpurge]), List.filter_nil, run_snoc]
      exact (ih hacts).step c (run_tidy c hacts) (run_tidy c hunswept) act

/-- runs that differ only in their sweeps lead to alike caches -/
theorem run_alike (c : Setup) {acts acts' : List (Act K V E J)} (h : ∀ key value ttl, Act.set key value ttl ∉ acts)
    (h' : ∀ key value ttl, Act.set key value ttl ∉ acts') (hsame : unswept acts = unswept acts') :
    Alike (run c (.new : St K V E J) acts) (run c .new acts') := by
  have hacts := run_unswept c acts h
  rw [hsame] at hacts
  exact hacts.trans (run_unswept c acts' h').symm

/-- alike caches answer a lookup alike -/
theorem Alike.get_eq (c : Setup) {st st' : St K V E J} (h : Alike st st') (hs : st.store.Wf) (hs' : st'.store.Wf)
    (key : K) : (st'.get c key).2 = (st.get c key).2 :=
  Option.ext fun _ => get_hit_iff.trans ((h.lookup_hit_iff hs hs').trans get_hit_iff.symm)

/-- alike caches tell a caller the same -/
theorem Alike.ask_eq {st st' : St K V E J} (h : Alike st st') (hs : st.store.Wf) (hs' : st'.store.Wf) (key : K) :
    (st'.store.ask key st'.now).2.1 = (st.store.ask key st.now).2.1 := by
  by_cases hhit : ∃ v, (st.store.lookup key st.now).2 = .hit v
  · obtain ⟨v, hv⟩ := hhit
    rw [(Store.ask_hit hv).1, (Store.ask_hit (h.lookup_hit hs' hv)).1]
  · have hno : ∀ v, (st.store.lookup key st.now).2 ≠ .hit v := fun v hv => hhit ⟨v, hv⟩
    have hno' : ∀ v, (st'.store.lookup key st'.now).2 ≠ .hit v := fun v hv => hno v ((h.lookup_hit_iff hs hs').1 hv)
    cases hfilling : st.store.filling? key with
    | some fill => rw [(Store.ask_join hno hfilling).1, (Store.ask_join hno' ((h.filling? key).trans hfilling)).1]
    | none =>
      obtain ⟨-, hnext⟩ := Prod.mk.inj (traffic_eq_iff.1 h.traffic).2.1
      rw [(Store.ask_lead hno hfilling).1, (Store.ask_lead hno' ((h.filling? key).trans hfilling)).1, hnext]

/-- **Sweeps are invisible.** Two runs in which nothing is stored directly and that differ only in where they sweep are,
when they have taken the same other acts, at the same instant, with the same live entries, the same marked keys and the
same fills and callers. Every lookup then finds the same in both, everyone who asks for a key is served the same value,
joins the same fill or leads one of the same number, and whatever a fill comes to is stored or turned away in both. -/
theorem sweeping_invisible (c : Setup) (acts acts' : List (Act K V E J))
    (h : ∀ key value ttl, Act.set key value ttl ∉ acts) (hsame : unswept acts = unswept acts') :
    let st : St K V E J := run c .new acts
    let st' : St K V E J := run c .new acts'
    st'.now = st.now ∧ st'.store.live st.now = st.store.live st.now ∧ st'.store.pending = st.store.pending ∧
    st'.fills = st.fills ∧ st'.callers = st.callers ∧
    (∀ key, (st'.get c key).2 = (st.get c key).2) ∧
    (∀ key, (st'.store.ask key st'.now).2.1 = (st.store.ask key st.now).2.1) ∧
    ∀ fill key value ttl,
      Writes c st' (.finish fill (.ok value)) key value ttl ↔ Writes c st (.finish fill (.ok value)) key value ttl := by
  intro st st'
  have h' : ∀ key value ttl, Act.set key value ttl ∉ acts' := by
    intro key value ttl hm
    have hkept : Act.set key value ttl ∈ unswept acts := hsame ▸ List.mem_filter.2 ⟨hm, rfl⟩
    exact h key value ttl (List.mem_filter.1 hkept).1
  have hs : Tidy st := run_tidy c h
  have hs' : Tidy st' := run_tidy c h'
  have halike : Alike st st' := run_alike c h h' hsame
  obtain ⟨hfills, hmarks, hcallers, -⟩ := traffic_eq_iff.1 halike.traffic
  exact ⟨halike.now, halike.live, (Prod.mk.inj hmarks).1, hfills, hcallers, fun key => halike.get_eq c hs.wf hs'.wf key,
    fun key => halike.ask_eq hs.wf hs'.wf key, fun fill key value ttl =>
      ⟨halike.symm.writes hs' hs, halike.writes hs hs'⟩⟩

/-- a cache that has room for two numbers -/
def Setup.narrow : Setup := ⟨"narrow", ⟨10, 330, 0⟩⟩

/-- two keys are filled, and a third is being filled when the first has expired and may have been swept out -/
def thirdFill (sweep : List (Act Nat Nat String Unit)) : List (Act Nat Nat String Unit) :=
  [.fetch 1 none (), .begin 1, .finish 1 (.ok 5), .fetch 2 (some 50) (), .begin 2, .finish 2 (.ok 6), .advance 10] ++
    sweep ++ [.fetch 3 (some 50) (), .begin 3]

/-- the value of the third fill is stored, whether or not the first entry has been swept out to make room for it -/
theorem thirdFill_alike :
    let st := run .narrow .new (thirdFill [.purge])
    let st' := run .narrow .new (thirdFill [])
    (∀ key value ttl, Act.set key value ttl ∉ thirdFill [.purge]) ∧
    unswept (thirdFill [.purge]) = unswept (thirdFill []) ∧
    st.store.entries.map (·.key) = [2] ∧ st'.store.entries.map (·.key) = [1, 2] ∧
    Writes .narrow st' (.finish 3 (.ok 7)) 3 7 50 := by
  intro st st'
  have hacts : ∀ key value ttl, Act.set key value ttl ∉ thirdFill [.purge] := by simp [thirdFill]
  have hsame : unswept (thirdFill [.purge]) = unswept (thirdFill []) := rfl
  have hwrites : Writes .narrow st (.finish 3 (.ok 7)) 3 7 50 :=
    .fill ⟨3, 3, some 50, (), .running⟩ 7 rfl rfl (by decide)
  obtain ⟨-, -, -, -, -, -, -, hdecided⟩ := sweeping_invisible .narrow (thirdFill [.purge]) (thirdFill []) hacts hsame
  exact ⟨hacts, hsame, by decide, by decide, (hdecided 3 3 7 50).2 hwrites⟩

end ChainBridge.Cache
