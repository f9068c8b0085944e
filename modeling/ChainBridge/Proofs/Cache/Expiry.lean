/-
An entry is expired from the instant of its expiry on, whoever looks at it.

A sweep goes along the index and stops at the first place that has not expired, while the entries that it removes stand
elsewhere. Since the index is in order and has every entry once, what goes is what has expired and nothing else
(`Wf.swept`). A lookup judges by the entry that it finds, a sweep by the place at the front, and an insertion by the
entry of each place that it empties; all three come to the same about every entry at every instant (`Wf.judged`). The
entries of other keys that an insertion makes disappear (`lost`) are counted one by one, as evictions as long as they
could still be served and as expirations from then on (`Wf.insert_counted`).
-/
import Mathlib
import ChainBridge.Proofs.Cache.Evictions

namespace ChainBridge.Cache

variable {K V E J : Type}

namespace Store

theorem not_isExpired_eq (expiresAt now : Nat) : (!isExpired expiresAt now) = decide (now < expiresAt) := by
  rw [isExpired, ← decide_not]
  exact decide_eq_decide.2 Nat.not_le

/-! ## Sweeps -/

section

variable [DecidableEq K] {s : Store K V}

/-- the index that is left begins with the first place that has not expired -/
theorem purgeFrom_index (now : Nat) (l : List (Place K)) (s : Store K V) :
    (purgeFrom now l s).1.index = l.dropWhile fun p => isExpired p.expiresAt now := by
  induction l generalizing s with
  | nil => rfl
  | cons p rest ih =>
    rw [purgeFrom, List.dropWhile_cons]
    by_cases hp : isExpired p.expiresAt now = true
    · rw [if_pos hp, if_pos hp]
      exact ih (s.drop p.key)
    · rw [if_neg hp, if_neg hp]

theorem purge_counters (s : Store K V) (now : Nat) : (s.purge now).1.counters =
    { s.counters with expirations := s.counters.expirations + (s.purge now).2 } := by
  have hkept := purgeFrom_counters now s.index s
  simp only [purge, hkept]

/-- how a sweep at an instant leaves the books, when it says that it removed `n` entries -/
structure Swept (now : Nat) (s s' : Store K V) (n : Nat) : Prop where
  /-- what has not expired is left as it was, and nothing else is -/
  kept : s'.entries = s.entries.filter fun e => decide (now < e.expiresAt)
  /-- a key is found no more just if its entry has expired, also while the key is being filled -/
  found : ∀ key, s'.find? key = (s.find? key).filter fun e => decide (now < e.expiresAt)
  /-- as many places have gone from the front as entries were removed, and the sweep ended before the first that has not
  expired -/
  ended : ∃ gone, s.index = gone ++ s'.index ∧ gone.length = n ∧ (∀ p ∈ gone, p.expiresAt ≤ now) ∧
    ∀ p ∈ s'.index, now < p.expiresAt
  removed : n = s.entries.countP fun e => decide (e.expiresAt ≤ now)
  counted : s'.counters = { s.counters with expirations := s.counters.expirations + n }
  freed : s.occupied = s'.occupied + total (s.entries.filter fun e => decide (e.expiresAt ≤ now))
  pending : s'.pending = s.pending
  nextFill : s'.nextFill = s.nextFill
  nextSeq : s'.nextSeq = s.nextSeq

/-! ## Victims -/

theorem victims_sublist (s : Store K V) (max size : Nat) (key : K) :
    (s.victims max size key).Sublist (s.erase key).index := by
  cases hr : s.room? max size key with
  | none =>
    rw [victims_of_no_room hr]
    exact List.nil_sublist _
  | some places =>
    rw [victims_of_room? hr]
    exact room?_sublist hr

/-- victims are counted by whether they have expired, and there are none if there is no room -/
theorem roomTally_room? (s : Store K V) (max now size : Nat) (key : K) :
    (roomTally now (s.room? max size key)).evictions =
      (s.victims max size key).countP (fun p => decide (now < p.expiresAt)) ∧
    (roomTally now (s.room? max size key)).expirations =
      (s.victims max size key).countP fun p => decide (p.expiresAt ≤ now) := by
  cases hr : s.room? max size key with
  | none =>
    rw [victims_of_no_room hr]
    exact ⟨rfl, rfl⟩
  | some places =>
    rw [victims_of_room? hr]
    exact ⟨congrArg (List.countP · places) (funext fun p => not_isExpired_eq p.expiresAt now), rfl⟩

end

/-! ## How expiry is judged -/

/-- the entries of other keys that are found no more when the books have changed -/
def lost [DecidableEq K] (s s' : Store K V) (key : K) : List (Entry K V) :=
  s.entries.filter fun e => decide (e.key ≠ key) && (s'.find? e.key).isNone

/-- whether a change of the books has counted every entry that was lost for a key by whether it had expired -/
structure LossCounted [DecidableEq K] (now : Nat) (s s' : Store K V) (key : K) : Prop where
  evictions : s'.counters.evictions =
    s.counters.evictions + (s.lost s' key).countP fun e => decide (now < e.expiresAt)
  expirations : s'.counters.expirations =
    s.counters.expirations + (s.lost s' key).countP fun e => decide (e.expiresAt ≤ now)

/-- how the parts of a cache judge a stored entry at an instant -/
structure Judged [DecidableEq K] (s : Store K V) (now : Nat) (e : Entry K V) : Prop where
  lookup : (s.lookup e.key now).2 = if now < e.expiresAt then .hit e.value else .expired
  lookupCounts : (s.lookup e.key now).1.counters =
    { s.counters with expirations := s.counters.expirations + if now < e.expiresAt then 0 else 1 }
  sweep : e ∈ (s.purge now).1.entries ↔ now < e.expiresAt
  victim : (evict now [e.place] s).2 = if now < e.expiresAt then ⟨1, 0⟩ else ⟨0, 1⟩

variable [DecidableEq K] [Footprint K] [Footprint V] {s : Store K V}

namespace Wf

/-- a sweep ends where nothing that is left has expired -/
theorem purge_front (h : Wf s) (now : Nat) : ∃ gone, s.index = gone ++ (s.purge now).1.index ∧
    gone.length = (s.purge now).2 ∧ (∀ p ∈ gone, p.expiresAt ≤ now) ∧
    ∀ p ∈ (s.purge now).1.index, now < p.expiresAt := by
  have hindex : (s.purge now).1.index = s.index.dropWhile fun p => isExpired p.expiresAt now :=
    purgeFrom_index now s.index s
  obtain ⟨gone, hgone⟩ : ∃ gone, gone = s.index.takeWhile fun p => isExpired p.expiresAt now := ⟨_, rfl⟩
  have hsplit : s.index = gone ++ (s.purge now).1.index := by rw [hgone, hindex, List.takeWhile_append_dropWhile]
  have hfront : ∀ p ∈ gone, isExpired p.expiresAt now = true := by
    intro p hp
    rw [hgone] at hp
    simpa using List.mem_takeWhile_imp hp
  have hleft : ∀ p ∈ (s.purge now).1.index, isExpired p.expiresAt now = false := by
    intro p hp
    obtain ⟨e, he, rfl⟩ := List.mem_map.1 ((h.purge now).listed.mem_iff.1 hp)
    rw [(purge_entries h now).1] at he
    simpa [Entry.place] using (List.mem_filter.1 he).2
  -- the entries that have expired are those at the places in front
  have hlength : gone.length = (s.purge now).2 := by
    have hplaces : s.index.countP (fun p => isExpired p.expiresAt now) =
        s.entries.countP fun e => isExpired e.expiresAt now := by
      rw [h.listed.countP_eq, List.countP_map]
      rfl
    rw [(purge_entries h now).2, ← hplaces, hsplit, List.countP_append, List.countP_eq_length.2 hfront,
      List.countP_eq_zero.2 fun p hp => by simp [hleft p hp], Nat.add_zero]
  exact ⟨gone, hsplit, hlength, fun p hp => of_decide_eq_true (hfront p hp), fun p hp =>
    Nat.not_le.1 (of_decide_eq_false (hleft p hp))⟩

/-- what a sweep removes is what has expired -/
theorem swept (h : Wf s) (now : Nat) : Swept now s (s.purge now).1 (s.purge now).2 := by
  obtain ⟨hentries, hcount⟩ := purge_entries h now
  simp only [not_isExpired_eq] at hentries
  obtain ⟨hpending, hfill⟩ := Prod.mk.inj (purge_marks s now)
  refine ⟨hentries, find?_of_filter h.keys hentries, h.purge_front now, hcount, purge_counters s now, ?_, hpending,
    hfill, purge_nextSeq s now⟩
  have hsplit := List.filter_append_perm (fun e : Entry K V => decide (now < e.expiresAt)) s.entries
  have hrest : (s.entries.filter fun e => !decide (now < e.expiresAt)) =
      s.entries.filter fun e => decide (e.expiresAt ≤ now) :=
    List.filter_congr fun e _ => by rw [← not_isExpired_eq, Bool.not_not, isExpired]
  calc s.occupied
    _ = total s.entries := h.occupied
    _ = total ((s.entries.filter fun e => decide (now < e.expiresAt)) ++
          s.entries.filter fun e => decide (e.expiresAt ≤ now)) := by rw [← hrest, total_perm hsplit]
    _ = total (s.purge now).1.entries + total (s.entries.filter fun e => decide (e.expiresAt ≤ now)) := by
        rw [total_append, hentries]
    _ = (s.purge now).1.occupied + total (s.entries.filter fun e => decide (e.expiresAt ≤ now)) := by
        rw [(h.purge now).occupied, total]

/-! ## Judgements -/

theorem judged (h : Wf s) (now : Nat) {e : Entry K V} (he : e ∈ s.entries) : s.Judged now e := by
  have hf : s.find? e.key = some e := find?_of_mem h.keys he
  have hplace : s.find? e.place.key = some e := hf
  have hsweep : e ∈ (s.purge now).1.entries ↔ now < e.expiresAt := by
    rw [(h.swept now).kept, List.mem_filter, decide_eq_true_eq, and_iff_right he]
  rcases Nat.lt_or_ge now e.expiresAt with hlive | hdead
  · have hexp : isExpired e.expiresAt now = false := decide_eq_false (Nat.not_le.2 hlive)
    refine ⟨?_, ?_, hsweep, ?_⟩
    · simp [Store.lookup, hf, hexp, hlive]
    · simp [Store.lookup, hf, hexp, hlive]
    · simp [evict, hplace, hexp, hlive]
  · have hexp : isExpired e.expiresAt now = true := decide_eq_true hdead
    have hnot : ¬now < e.expiresAt := Nat.not_lt.2 hdead
    refine ⟨?_, ?_, hsweep, ?_⟩
    · simp [Store.lookup, hf, hexp, hnot]
    · simp [Store.lookup, hf, hexp, hnot, erase_counters]
    · simp [evict, hplace, hexp, hnot]

/-! ## Insertions -/

/-- an entry of another key is lost for an insertion if it stood at a victim -/
theorem mem_lost_insert_iff (h : Wf s) (max now : Nat) (key : K) (value : V) (ttl : Nat) {e : Entry K V} :
    e ∈ s.lost (s.insert max now key value ttl).1 key ↔
      e ∈ s.entries ∧ e.key ≠ key ∧ e.place ∈ s.victims max (entrySize key value) key := by
  have hentries := h.insert_entries max now key value ttl
  simp only [lost, List.mem_filter, Bool.and_eq_true, decide_eq_true_eq, Option.isNone_iff_eq_none]
  refine and_congr_right fun he => and_congr_right fun hkey => ?_
  constructor
  · intro hgone
    by_contra hstays
    have hmem : e ∈ (s.insert max now key value ttl).1.entries := by
      rw [hentries]
      exact List.mem_append_left _ (List.mem_filter.2 ⟨he, decide_eq_true ⟨hkey, hstays⟩⟩)
    exact find?_none hgone e hmem rfl
  · intro hvictim
    refine find?_eq_none_of fun e' he' hsame => ?_
    rw [hentries, List.mem_append] at he'
    rcases he' with hold | hnew
    · obtain ⟨hmem, hkept⟩ := List.mem_filter.1 hold
      obtain rfl : e' = e := List.inj_on_of_nodup_map h.keys hmem he hsame
      exact (of_decide_eq_true hkept).2 hvictim
    · -- what is stored is of the key itself
      split_ifs at hnew
      · rw [List.mem_singleton.1 hnew] at hsame
        exact hkey hsame.symm
      · exact absurd hnew List.not_mem_nil

/-- what an insertion makes disappear of other keys is the entries at its victims, each once -/
theorem lost_insert_perm (h : Wf s) (max now : Nat) (key : K) (value : V) (ttl : Nat) :
    ((s.lost (s.insert max now key value ttl).1 key).map Entry.place).Perm
      (s.victims max (entrySize key value) key) := by
  have hsub := victims_sublist s max (entrySize key value) key
  have hvictims : (s.victims max (entrySize key value) key).Nodup :=
    .of_map Place.slot ((hsub.map Place.slot).nodup (h.erase key).slots)
  refine (List.perm_ext_iff_of_nodup ((List.filter_sublist.map _).nodup h.places) hvictims).2 fun p => ?_
  rw [List.mem_map]
  constructor
  · rintro ⟨e, he, rfl⟩
    exact ((h.mem_lost_insert_iff max now key value ttl).1 he).2.2
  · intro hp
    obtain ⟨e, he, rfl⟩ := List.mem_map.1 ((h.erase key).listed.mem_iff.1 (hsub.subset hp))
    rw [erase_entries, List.mem_filter, decide_eq_true_eq] at he
    exact ⟨e, (h.mem_lost_insert_iff max now key value ttl).2 ⟨he.1, he.2, hp⟩, rfl⟩

/-- an insertion counts what it makes disappear by whether it had expired -/
theorem insert_counted (h : Wf s) (max now : Nat) (key : K) (value : V) (ttl : Nat) :
    LossCounted now s (s.insert max now key value ttl).1 key := by
  have hcounters := h.insert_counters max now key value ttl
  obtain ⟨hevictions, hexpirations⟩ := roomTally_room? s max now (entrySize key value) key
  have hcount : ∀ P : Place K → Bool, (s.lost (s.insert max now key value ttl).1 key).countP (P ∘ Entry.place) =
      (s.victims max (entrySize key value) key).countP P := fun P => by
    rw [← (h.lost_insert_perm max now key value ttl).countP_eq, List.countP_map]
  refine ⟨?_, ?_⟩
  · rw [hcounters]
    exact congrArg (s.counters.evictions + ·) (hevictions.trans (hcount _).symm)
  · rw [hcounters]
    exact congrArg (s.counters.expirations + ·) (hexpirations.trans (hcount _).symm)

end Wf

end Store

variable [DecidableEq K]

/-- who reads an entry is served what a lookup finds -/
theorem get_of_judged {st : St K V E J} {e : Entry K V} (h : st.store.Judged st.now e) (c : Setup) :
    (st.get c e.key).2 = if st.now < e.expiresAt then some e.value else none := by
  have hfound := h.lookup
  simp only [St.get]
  split
  · rename_i s v hlookup
    rw [hlookup] at hfound
    split_ifs at hfound with hlive
    · rw [if_pos hlive, (Store.Lookup.hit.inj hfound : v = e.value)]
  · rename_i s found hmiss hlookup
    rw [hlookup] at hfound
    split_ifs at hfound with hlive
    · exact (hmiss _ hfound).elim
    · rw [if_neg hlive]

variable [Footprint K] [Footprint V]

/-- **A sweep removes what has expired and nothing else.** After any sequence of acts and at any instant, a sweep
comes to an end and leaves the books as `Swept` says: every entry that has not expired stays as it is, every other is
gone, whether or not its key is being filled, and is counted once, and its bytes are given back; the markers of keys
stay. Every stored entry is judged alike by a reader, a lookup, a sweep and an insertion that empties its place: it is
served, kept and counted as an eviction before the instant of its expiry, and from then on it is not served, is swept
and is counted as an expiration. So is what an insertion makes disappear, also when its key has just been let go by its
fill. -/
theorem sweeps_exact (c : Setup) (acts : List (Act K V E J)) (now : Nat) :
    let st : St K V E J := run c .new acts
    Store.Swept now st.store (st.store.purge now).1 (st.store.purge now).2 ∧
    (∀ e ∈ st.store.entries, st.store.Judged now e ∧
      (({ st with now := now } : St K V E J).get c e.key).2 = if now < e.expiresAt then some e.value else none) ∧
    ∀ max key value ttl fill,
      Store.LossCounted now st.store (st.store.insert max now key value ttl).1 key ∧
      Store.LossCounted now (st.store.release key fill)
        ((st.store.release key fill).insert max now key value ttl).1 key := by
  intro st
  have h : st.store.Wf := run_wf c acts
  refine ⟨h.swept now, fun e he => ?_, fun max key value ttl fill => ⟨h.insert_counted max now key value ttl, ?_⟩⟩
  · have hjudged := h.judged now he
    exact ⟨hjudged, get_of_judged hjudged c⟩
  · exact ((wf_lasting 0).release st.store key fill h).insert_counted max now key value ttl

-- at the instant of its expiry an entry is swept, and the marker of its key stays
example :
    let st : St Nat Nat String Unit := run .plain .new [.fetch 1 none (), .set 1 5 (some 10), .set 2 6 (some 20)]
    let swept := st.store.purge 10
    swept.1.entries.map (·.key) = [2] ∧ swept.1.isPending 1 = true ∧ swept.2 = 1 := by
  decide

end ChainBridge.Cache
