/-
What a key holds is what was written last, if that has neither been ousted nor expired.

`Since` says that something was done in a run and that nothing of another kind has been done after it. A write of a key
`Stands` as long as the key is neither offered another value, kept or turned away, nor invalidated, nor cleared, nor
evicted to make room while it was alive (`Ousts`). A sweep ousts nothing, since what it takes out has expired. Entries
and standing writes are tied to each other in both directions by an induction along the run:
- `run_stands`: every stored entry comes from a write that stands, so nothing is served that was not written last;
- `run_stored`: the value of a write that stands is stored until it expires, so nothing is lost.

`hit_iff_stands` states what this means for a lookup and for a caller, and that a fill that fails writes nothing.
-/
import Mathlib
import ChainBridge.Proofs.Cache.Callers
import ChainBridge.Proofs.Cache.Offers

namespace ChainBridge.Cache

variable {K V E J : Type} [DecidableEq K] [Footprint K] [Footprint V]

/-! ## Something done, and nothing after it -/

/-- whether an act of one kind was taken in a run and none of another kind after it -/
def Since (c : Setup) (acts : List (Act K V E J)) (P Q : St K V E J → Act K V E J → Prop) : Prop :=
  ∃ pre act post, acts = pre ++ act :: post ∧ P (run c .new pre) act ∧
    ∀ mid next rest, post = mid ++ next :: rest → ¬Q (run c .new (pre ++ act :: mid)) next

section

variable {c : Setup} {P Q : St K V E J → Act K V E J → Prop}

theorem not_since_nil : ¬Since c [] P Q := by
  rintro ⟨pre, act, post, h, -⟩
  simp at h

theorem since_snoc {acts : List (Act K V E J)} {act : Act K V E J} :
    Since c (acts ++ [act]) P Q ↔
      (Since c acts P Q ∧ ¬Q (run c .new acts) act) ∨ P (run c .new acts) act := by
  constructor
  -- either the act is the one that was taken, or it is the last of those after it
  · rintro ⟨pre, act', post, h, hp, hq⟩
    rcases split_snoc h with ⟨rfl, rfl, rfl⟩ | ⟨post', rfl, rfl⟩
    · exact .inr hp
    · refine .inl ⟨⟨pre, act', post', rfl, hp, fun mid next rest hpost => ?_⟩, hq post' act [] (by simp)⟩
      exact hq mid next (rest ++ [act]) (by simp [hpost])
  · rintro (⟨⟨pre, act', post, rfl, hp, hq⟩, hlast⟩ | hp)
    · refine ⟨pre, act', post ++ [act], by simp, hp, fun mid next rest hpost => ?_⟩
      rcases split_snoc hpost with ⟨rfl, rfl, rfl⟩ | ⟨rest', rfl, rfl⟩
      · exact hlast
      · exact hq mid next rest' rfl
    · exact ⟨acts, act, [], rfl, hp, fun mid next rest hpost => by simp at hpost⟩

end

/-! ## What ends a write -/

/-- whether an act takes a key's place in the books away from a value that has not expired: the key is offered another
value, whether that is kept or not, it is invalidated, everything is cleared, or it is evicted to make room -/
inductive Ousts (c : Setup) (st : St K V E J) : Act K V E J → K → Prop where
  | attempt (act : Act K V E J) (o : Offer K V) : act.offer? c st = some o → Ousts c st act o.key
  | invalidate (key : K) : Ousts c st (.invalidate key) key
  | clear (key : K) : Ousts c st .clear key
  | evict (act : Act K V E J) (o : Offer K V) (p : Place K) : act.offer? c st = some o → p ∈ o.victims c →
      isExpired p.expiresAt st.now = false → Ousts c st act p.key

/-- whether a value was written to a key at an instant, to live for so long, and the key has not been ousted since -/
def Stands (c : Setup) (acts : List (Act K V E J)) (key : K) (value : V) (since ttl : Nat) : Prop :=
  Since c acts (fun st act => Writes c st act key value ttl ∧ st.now = since) fun st act => Ousts c st act key

section

variable {c : Setup} {st : St K V E J} {act : Act K V E J} {key : K} {value value' : V} {ttl ttl' : Nat}

/-- who writes a key offers it a value -/
theorem Writes.ousts (h : Writes c st act key value ttl) : Ousts c st act key := by
  obtain ⟨o, ho, rfl, -⟩ := writes_iff.1 h
  exact .attempt act o ho

theorem Writes.unique (h : Writes c st act key value ttl) (h' : Writes c st act key value' ttl') :
    value = value' ∧ ttl = ttl' := by
  obtain ⟨o, ho, -, rfl, httl, -⟩ := writes_iff.1 h
  obtain ⟨o', ho', -, rfl, httl', -⟩ := writes_iff.1 h'
  obtain rfl := Option.some.inj (ho.symm.trans ho')
  exact ⟨rfl, Option.some.inj (httl.symm.trans httl')⟩

/-- one write of a key stands at most -/
theorem Stands.unique {acts : List (Act K V E J)} {since since' : Nat} (h : Stands c acts key value since ttl)
    (h' : Stands c acts key value' since' ttl') : value = value' ∧ since = since' ∧ ttl = ttl' := by
  induction acts using List.reverseRecOn with
  | nil => exact absurd h not_since_nil
  | append_singleton acts act ih =>
    rcases since_snoc.1 h with ⟨hold, hno⟩ | ⟨hw, rfl⟩
    · rcases since_snoc.1 h' with ⟨hold', -⟩ | ⟨hw', -⟩
      · exact ih hold hold'
      · exact absurd hw'.ousts hno
    · rcases since_snoc.1 h' with ⟨-, hno⟩ | ⟨hw', rfl⟩
      · exact absurd hw.ousts hno
      · obtain ⟨hvalue, httl⟩ := hw.unique hw'
        exact ⟨hvalue, rfl, httl⟩

/-! ## What an act leaves under a key -/

/-- an act that has an offer spares the other keys that are no victims -/
theorem Act.spares_of_offer {o : Offer K V} (ho : act.offer? c st = some o) (e : Entry K V) :
    act.spares c st e = decide (e.key ≠ o.key ∧ e.place ∉ o.victims c) := by
  cases act with
  | set key value ttl => simp only [spares, ho, Option.all_some]
  | squeeze key value => simp only [spares, ho, Option.all_some]
  | finish fill outcome => simp only [spares, ho, Option.all_some]
  | _ => exact absurd ho (by simp [Act.offer?])

/-- the victims of an offer are places of the index -/
theorem Offer.victims_subset (hs : st.store.Wf) {o : Offer K V} (ho : act.offer? c st = some o) {p : Place K}
    (hp : p ∈ o.victims c) : p ∈ st.store.index := by
  obtain ⟨hentries, -⟩ := Offer.books_entries ho
  have hw : o.books.Wf := Offer.books_wf hs ho
  cases hr : o.books.room? c.policy.maxSize (entrySize o.key o.value) o.key with
  | none =>
    rw [Offer.victims, Store.victims_of_no_room hr] at hp
    exact absurd hp List.not_mem_nil
  | some places =>
    rw [Offer.victims, Store.victims_of_room? hr] at hp
    obtain ⟨e, he, rfl⟩ := List.mem_map.1 ((hw.erase o.key).listed.mem_iff.1 ((Store.room?_sublist hr).subset hp))
    rw [Store.erase_entries, hentries] at he
    exact hs.place_mem (List.mem_filter.1 he).1

/-- what is ousted is not spared -/
theorem Ousts.not_spared (hs : st.store.Wf) {e : Entry K V} (he : e ∈ st.store.entries)
    (h : Ousts c st act e.key) : act.spares c st e = false := by
  generalize hkey : e.key = key at h
  cases h with
  | attempt _ o ho =>
    rw [Act.spares_of_offer ho]
    simp [hkey]
  | invalidate _ => simp [Act.spares, hkey]
  | clear _ => rfl
  | evict _ o p ho hp _ =>
    -- the victim is the place of the entry, which is the only one of its key
    obtain ⟨e', hf, rfl⟩ := hs.find?_place (Offer.victims_subset hs ho hp)
    obtain ⟨he', -⟩ := Store.find?_some hf
    obtain rfl : e = e' := List.inj_on_of_nodup_map hs.keys he he' hkey
    rw [Act.spares_of_offer ho]
    simp [hp]

/-- what has not expired and is not ousted is spared -/
theorem Act.spares_of_not_ousts {e : Entry K V} (hlive : isExpired e.expiresAt st.now = false)
    (h : ¬Ousts c st act e.key) : act.spares c st e = true := by
  cases ho : act.offer? c st with
  | some o =>
    rw [Act.spares_of_offer ho, decide_eq_true_eq]
    refine ⟨fun hkey => h ?_, fun hp => h (.evict act o e.place ho hp hlive)⟩
    rw [hkey]
    exact .attempt act o ho
  | none =>
    cases act with
    | get key => simp [spares, hlive]
    | fetch key ttl job => simp [spares, hlive]
    | purge => simp [spares, hlive]
    | invalidate key =>
      refine decide_eq_true fun hkey => h ?_
      rw [hkey]
      exact .invalidate key
    | clear => exact absurd (.clear e.key) h
    | set key value ttl => exact absurd ho (by simp [Act.offer?])
    | squeeze key value => exact absurd ho (by simp [Act.offer?])
    | finish fill outcome => simp only [spares, ho, Option.all_none]
    | _ => rfl

/-- a key holds after an act what the act stored, or what it held before and the act spared -/
theorem step_find? (c : Setup) (hs : st.store.Wf) (act : Act K V E J) (key : K) :
    (step c st act).store.find? key =
      ((st.store.find? key).filter (act.spares c st)).or ((act.adds c st).find? fun e => decide (e.key = key)) := by
  have hfilter : ({ st.store with entries := st.store.entries.filter (act.spares c st) } : Store K V).find? key =
      (st.store.find? key).filter (act.spares c st) := Store.find?_of_filter hs.keys rfl key
  rw [← hfilter, Store.find?, (step_edits c hs act).entries, List.find?_append]
  rfl

/-- an entry that is found after an act was written by it, or was there before and is not ousted by it -/
theorem find?_step_some (c : Setup) (hs : st.store.Wf) {e : Entry K V}
    (h : (step c st act).store.find? key = some e) :
    (∃ ttl, Writes c st act key e.value ttl ∧ e.insertedAt = st.now ∧ e.expiresAt = st.now + ttl) ∨
    (st.store.find? key = some e ∧ ¬Ousts c st act key) := by
  rw [step_find? c hs, Option.or_eq_some_iff] at h
  rcases h with h | ⟨-, h⟩
  · obtain ⟨hf, hspared⟩ := Option.filter_eq_some_iff.1 h
    obtain ⟨he, rfl⟩ := Store.find?_some hf
    refine .inr ⟨hf, fun hno => ?_⟩
    rw [hno.not_spared hs he] at hspared
    exact absurd hspared (by simp)
  · obtain ⟨key', value, ttl, hw, rfl⟩ := mem_adds_iff.1 (List.mem_of_find?_eq_some h)
    obtain rfl : key' = key := by simpa using List.find?_some h
    exact .inl ⟨ttl, hw, rfl, rfl⟩

/-- what is written is found -/
theorem Writes.find? (hs : st.store.Wf) (h : Writes c st act key value ttl) :
    (step c st act).store.find? key =
      some ⟨key, value, st.now, st.now + ttl, st.store.nextSeq + 1, entrySize key value⟩ := by
  have hold : (st.store.find? key).filter (act.spares c st) = none := by
    refine Option.filter_eq_none_iff.2 fun e hf => ?_
    obtain ⟨he, rfl⟩ := Store.find?_some hf
    simp [h.ousts.not_spared hs he]
  rw [step_find? c hs, hold, Option.none_or, h.adds]
  simp

/-- what has not expired and is not ousted is still found -/
theorem find?_step_of_live (c : Setup) (hs : st.store.Wf) {e : Entry K V} (hf : st.store.find? key = some e)
    (hlive : isExpired e.expiresAt st.now = false) (h : ¬Ousts c st act key) :
    (step c st act).store.find? key = some e := by
  obtain ⟨-, rfl⟩ := Store.find?_some hf
  rw [step_find? c hs, hf, Option.filter_some, if_pos (Act.spares_of_not_ousts hlive h), Option.some_or]

end

/-! ## Entries and standing writes -/

/-- every stored entry comes from a write that stands -/
theorem run_stands (c : Setup) (acts : List (Act K V E J)) {key : K} {e : Entry K V}
    (h : (run c .new acts).store.find? key = some e) :
    ∃ ttl, Stands c acts key e.value e.insertedAt ttl ∧ e.expiresAt = e.insertedAt + ttl := by
  induction acts using List.reverseRecOn with
  | nil => exact absurd h (by simp [run, St.new, Store.find?, Store.empty])
  | append_singleton acts act ih =>
    rw [run_snoc] at h
    rcases find?_step_some c (run_wf c acts) h with ⟨ttl, hw, hat, hexp⟩ | ⟨hf, hno⟩
    · exact ⟨ttl, since_snoc.2 (.inr ⟨hw, hat.symm⟩), by rw [hexp, hat]⟩
    · obtain ⟨ttl, hstands, hexp⟩ := ih hf
      exact ⟨ttl, since_snoc.2 (.inl ⟨hstands, hno⟩), hexp⟩

/-- the value of a write that stands is stored until it expires -/
theorem run_stored (c : Setup) (acts : List (Act K V E J)) {key : K} {value : V} {since ttl : Nat}
    (h : Stands c acts key value since ttl) (hlive : (run c .new acts).now < since + ttl) :
    ∃ e, (run c .new acts).store.find? key = some e ∧ e.value = value ∧ e.expiresAt = since + ttl := by
  induction acts using List.reverseRecOn with
  | nil => exact absurd h not_since_nil
  | append_singleton acts act ih =>
    have hs : (run c .new acts).store.Wf := run_wf c acts
    rw [run_snoc] at hlive ⊢
    rcases since_snoc.1 h with ⟨hstands, hno⟩ | ⟨hw, rfl⟩
    · rw [step_now] at hlive
      obtain ⟨e, hf, hvalue, hexp⟩ := ih hstands (by omega)
      refine ⟨e, find?_step_of_live c hs hf ?_ hno, hvalue, hexp⟩
      rw [hexp]
      exact decide_eq_false (by omega)
    · exact ⟨_, hw.find? hs, rfl, rfl⟩

/-- a lookup finds a value if and only if a write of it stands and has not expired -/
theorem lookup_hit_iff_stands (c : Setup) (acts : List (Act K V E J)) (key : K) (value : V) :
    ((run c .new acts).store.lookup key (run c (.new : St K V E J) acts).now).2 = .hit value ↔
      ∃ since ttl, Stands c acts key value since ttl ∧ (run c .new acts).now < since + ttl := by
  rw [Store.lookup_hit_iff]
  constructor
  · rintro ⟨e, hf, hlive, rfl⟩
    obtain ⟨ttl, hstands, hexp⟩ := run_stands c acts hf
    refine ⟨e.insertedAt, ttl, hstands, ?_⟩
    rw [hexp] at hlive
    have hlt := of_decide_eq_false hlive
    omega
  · rintro ⟨since, ttl, hstands, hlt⟩
    obtain ⟨e, hf, hvalue, hexp⟩ := run_stored c acts hstands hlt
    refine ⟨e, hf, ?_, hvalue⟩
    rw [hexp]
    exact decide_eq_false (by omega)

/-- where the write that stands has expired, no lookup finds anything -/
theorem Stands.lookup_ne_hit {c : Setup} {acts : List (Act K V E J)} {key : K} {value : V} {since ttl : Nat}
    (h : Stands c acts key value since ttl) (hover : since + ttl ≤ (run c .new acts).now) (v : V) :
    ((run c .new acts).store.lookup key (run c (.new : St K V E J) acts).now).2 ≠ .hit v := by
  intro hv
  obtain ⟨since', ttl', hstands', hlt⟩ := (lookup_hit_iff_stands c acts key v).1 hv
  obtain ⟨-, rfl, rfl⟩ := h.unique hstands'
  omega

/-! ## What is left behind -/

/-- an act that offers nothing and spares every entry leaves the entries as they are -/
theorem quiet_entries (c : Setup) {st : St K V E J} (hs : st.store.Wf) (act : Act K V E J)
    (ho : act.offer? c st = none) (hspares : ∀ e, act.spares c st e = true) :
    (step c st act).store.entries = st.store.entries := by
  rw [(step_edits c hs act).entries, Act.adds, ho, List.filter_eq_self.2 fun e _ => hspares e, Option.bind_none,
    Option.toList_none, List.append_nil]

/-- whether a key is neither stored nor in the order of expiry -/
def Store.Lacks (s : Store K V) (key : K) : Prop := (∀ e ∈ s.entries, e.key ≠ key) ∧ ∀ p ∈ s.index, p.key ≠ key

/-- a lookup that does not hit leaves nothing of its key -/
theorem Store.Wf.lacks_of_lookup {s s' : Store K V} (h : Wf s) (h' : Wf s') {key : K} {now : Nat}
    (hentries : s'.entries = (s.lookup key now).1.entries) (hno : ∀ v, (s.lookup key now).2 ≠ .hit v) :
    s'.Lacks key := by
  have hkeys : ∀ e ∈ s'.entries, e.key ≠ key := by
    rintro e he rfl
    rw [hentries, h.lookup_entries] at he
    obtain ⟨hmem, hspared⟩ := List.mem_filter.1 he
    refine hno e.value (Store.lookup_hit_iff.2 ⟨e, Store.find?_of_mem h.keys hmem, ?_, rfl⟩)
    simpa using hspared
  refine ⟨hkeys, fun p hp => ?_⟩
  obtain ⟨e, he, rfl⟩ := List.mem_map.1 (h'.listed.mem_iff.1 hp)
  exact hkeys e he

/-- **Lookups are exact.** After any sequence of acts, a lookup of a key finds a value if and only if a write of the key
stands that wrote the value and has not expired, and a caller that asks for the key is served just the same. A fill that
ends with an error, crashes or is dropped changes no entry. When a write that stands has expired, from the very instant
on, a lookup of its key finds nothing and a caller is not served, and either leaves nothing of the key behind. -/
theorem hit_iff_stands (c : Setup) (acts : List (Act K V E J)) (key : K) :
    let st : St K V E J := run c .new acts
    (∀ value, (st.get c key).2 = some value ↔
      ∃ since ttl, Stands c acts key value since ttl ∧ st.now < since + ttl) ∧
    (∀ lifetime job value,
      (st.fetch c key lifetime job).1.callers = st.callers ++ [⟨st.nextCaller, key, .served value⟩] ↔
      ∃ since ttl, Stands c acts key value since ttl ∧ st.now < since + ttl) ∧
    (∀ fill, (∀ e, (st.finish c fill (.error e)).store.entries = st.store.entries) ∧
      (st.crash fill).store.entries = st.store.entries ∧ (st.discard fill).store.entries = st.store.entries) ∧
    ∀ value since ttl, Stands c acts key value since ttl → since + ttl ≤ st.now →
      (st.get c key).2 = none ∧ (st.get c key).1.store.Lacks key ∧
      ∀ lifetime job, (st.fetch c key lifetime job).1.store.Lacks key ∧
        ∀ v, (st.fetch c key lifetime job).1.callers ≠ st.callers ++ [⟨st.nextCaller, key, .served v⟩] := by
  intro st
  have hs : st.store.Wf := run_wf c acts
  have hlookup := lookup_hit_iff_stands c acts key
  refine ⟨fun value => get_hit_iff.trans (hlookup value), fun lifetime job value =>
    fetch_served_iff.trans (hlookup value), fun fill => ⟨fun e => ?_, ?_, ?_⟩, ?_⟩
  · exact quiet_entries c hs (.finish fill (.error e)) rfl fun _ => rfl
  · exact (crash_entries st fill).1
  · exact quiet_entries c hs (.discard fill) rfl fun _ => rfl
  · intro value since ttl hstands hover
    have hno := hstands.lookup_ne_hit hover
    refine ⟨?_, ?_, fun lifetime job => ⟨?_, fun v hv => hno v (fetch_served_iff.1 hv)⟩⟩
    · cases hget : (st.get c key).2 with
      | none => rfl
      | some v => exact absurd (get_hit_iff.1 hget) (hno v)
    · exact hs.lacks_of_lookup (step_lasting (wf_lasting c.policy.maxSize) st (.get key) hs)
        (get_entries c st key).1 hno
    · exact hs.lacks_of_lookup (step_lasting (wf_lasting c.policy.maxSize) st (.fetch key lifetime job) hs)
        (fetch_entries c st key lifetime job).1 hno

end ChainBridge.Cache
