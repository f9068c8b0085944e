/-
What an act does to the stored entries.

An act that comes with a value offers it to the books (`Act.offer?`): a `set` and a running fill that ends with a value
offer it to be kept, a `squeeze` only has room made for it. `step_edits` says all that any act does to the entries: it
spares some of them (`Act.spares`) and adds what it stores (`Act.adds`). `Writes` is what it means that a value was
stored, by a `set` that says so or by a fill whose value was not turned away; `mem_adds_iff` says that the entries that
are added are those that are written.
-/
import Mathlib
import ChainBridge.Cache.Machine
import ChainBridge.Proofs.Cache.Entries
import ChainBridge.Proofs.Cache.Fates
import ChainBridge.Proofs.Cache.Fills
import ChainBridge.Proofs.Cache.Representation

namespace ChainBridge.Cache

variable {K V E J : Type} [DecidableEq K]

/-! ## Looking up -/

namespace Store

variable {s : Store K V}

/-- a lookup takes out the entry of its key if that has expired -/
theorem Wf.lookup_entries [Footprint K] [Footprint V] (h : Wf s) (key : K) (now : Nat) :
    (s.lookup key now).1.entries =
      s.entries.filter fun e => !(decide (e.key = key) && isExpired e.expiresAt now) := by
  unfold lookup
  cases hf : s.find? key with
  | none =>
    refine (List.filter_eq_self.2 fun e he => ?_).symm
    simp [find?_none hf e he]
  | some e =>
    obtain ⟨he, rfl⟩ := find?_some hf
    have hown : ∀ e' ∈ s.entries, e'.key = e.key → e' = e := fun e' he' hkey =>
      List.inj_on_of_nodup_map h.keys he' he hkey
    cases hexp : isExpired e.expiresAt now with
    | true =>
      simp only [hexp, if_true, erase_entries]
      refine List.filter_congr fun e' he' => ?_
      by_cases hkey : e'.key = e.key
      · simp [hown e' he' hkey, hexp]
      · simp [hkey]
    | false =>
      simp only [hexp, Bool.false_eq_true, if_false]
      refine (List.filter_eq_self.2 fun e' he' => ?_).symm
      by_cases hkey : e'.key = e.key
      · simp [hown e' he' hkey, hexp]
      · simp [hkey]

theorem lookup_hit_iff {key : K} {now : Nat} {value : V} :
    (s.lookup key now).2 = .hit value ↔
      ∃ e, s.find? key = some e ∧ isExpired e.expiresAt now = false ∧ e.value = value := by
  unfold lookup
  cases hf : s.find? key with
  | none => simp
  | some e =>
    cases hexp : isExpired e.expiresAt now with
    | true => simp [hexp]
    | false => simp [hexp]

theorem lookup_nextSeq (s : Store K V) (key : K) (now : Nat) : (s.lookup key now).1.nextSeq = s.nextSeq := by
  unfold lookup
  cases s.find? key with
  | none => rfl
  | some e =>
    simp only
    split_ifs
    · exact erase_nextSeq s key
    · rfl

theorem purge_nextSeq (s : Store K V) (now : Nat) : (s.purge now).1.nextSeq = s.nextSeq := by
  have hfrom : ∀ (l : List (Place K)) (s : Store K V), (purgeFrom now l s).1.nextSeq = s.nextSeq := by
    intro l
    induction l with
    | nil => exact fun s => rfl
    | cons p rest ih =>
      intro s
      rw [purgeFrom]
      split_ifs
      · refine (ih (s.drop p.key)).trans ?_
        unfold drop
        split <;> rfl
      · rfl
  exact hfrom s.index s

theorem release_nextSeq (s : Store K V) (key : K) (fill : Nat) : (s.release key fill).nextSeq = s.nextSeq := by
  unfold release
  split
  · rfl
  · split_ifs <;> rfl

/-- who asks does to the entries what a lookup does -/
theorem ask_entries (s : Store K V) (key : K) (now : Nat) :
    (s.ask key now).1.entries = (s.lookup key now).1.entries ∧ (s.ask key now).1.nextSeq = s.nextSeq := by
  have hseq := lookup_nextSeq s key now
  unfold ask
  split
  · rename_i s' v he
    rw [he] at hseq ⊢
    exact ⟨rfl, hseq⟩
  · rename_i s' found _ he
    rw [he] at hseq ⊢
    simp only
    split <;> exact ⟨rfl, hseq⟩

end Store

theorem get_entries (c : Setup) (st : St K V E J) (key : K) :
    (st.get c key).1.store.entries = (st.store.lookup key st.now).1.entries ∧
    (st.get c key).1.store.nextSeq = st.store.nextSeq := by
  have hseq := Store.lookup_nextSeq st.store key st.now
  unfold St.get
  split
  · rename_i s' v he
    rw [he] at hseq ⊢
    exact ⟨rfl, hseq⟩
  · rename_i s' found _ he
    rw [he] at hseq ⊢
    exact ⟨rfl, hseq⟩

theorem fetch_entries (c : Setup) (st : St K V E J) (key : K) (ttl : Option Nat) (job : J) :
    (st.fetch c key ttl job).1.store.entries = (st.store.lookup key st.now).1.entries ∧
    (st.fetch c key ttl job).1.store.nextSeq = st.store.nextSeq := by
  have hask := Store.ask_entries st.store key st.now
  unfold St.fetch
  simp only
  split <;> exact hask

theorem get_hit_iff {c : Setup} {st : St K V E J} {key : K} {value : V} :
    (st.get c key).2 = some value ↔ (st.store.lookup key st.now).2 = .hit value := by
  unfold St.get
  split
  · rename_i s v he
    rw [he]
    exact ⟨fun h => congrArg _ (Option.some.inj h), fun h => congrArg _ (Store.Lookup.hit.inj h)⟩
  · rename_i s found hno he
    rw [he]
    exact ⟨fun h => absurd h (by simp), fun h => absurd h (hno value)⟩

/-- a caller is served what the lookup of its key finds -/
theorem fetch_served_iff {c : Setup} {st : St K V E J} {key : K} {ttl : Option Nat} {job : J} {value : V} :
    (st.fetch c key ttl job).1.callers = st.callers ++ [⟨st.nextCaller, key, .served value⟩] ↔
      (st.store.lookup key st.now).2 = .hit value := by
  obtain ⟨ticket, hadmits, hcallers⟩ := fetch_admits c st key ttl job
  rw [hcallers]
  generalize (st.fetch c key ttl job).1.fills = fills at hadmits
  generalize (st.fetch c key ttl job).1.store.marks = marks at hadmits
  constructor
  · intro h
    have hticket : ticket = .served value := by simpa using h
    cases hadmits with
    | hit v hv => rw [hv, Ticket.served.inj hticket]
    | join fill _ _ => exact absurd hticket (by simp)
    | lead _ _ => exact absurd hticket (by simp)
  · intro h
    cases hadmits with
    | hit v hv => rw [Store.Lookup.hit.inj (hv.symm.trans h)]
    | join fill hno _ => exact absurd h (hno value)
    | lead hno _ => exact absurd h (hno value)

theorem crash_entries (st : St K V E J) (fill : Nat) :
    (st.crash fill).store.entries = st.store.entries ∧ (st.crash fill).store.nextSeq = st.store.nextSeq := by
  unfold St.crash
  split
  · exact ⟨Store.release_entries st.store _ fill, Store.release_nextSeq st.store _ fill⟩
  · exact ⟨rfl, rfl⟩

/-! ## Offers -/

/-- a value that is offered to the books: as they stand then, under which key, and how long it is to live, if it is to
be kept at all -/
structure Offer (K V : Type) where
  books : Store K V
  key : K
  value : V
  ttl : Option Nat

/-- what an act offers to the books -/
def Act.offer? (c : Setup) (st : St K V E J) : Act K V E J → Option (Offer K V)
  | .set key value ttl => some ⟨st.store, key, value, some (ttl.getD c.policy.defaultTtl)⟩
  | .squeeze key value => some ⟨st.store, key, value, none⟩
  | .finish fill (.ok value) =>
    match st.fill? fill with
    | some ⟨_, key, ttl, _, .running⟩ =>
      some ⟨st.store.release key fill, key, value, some (ttl.getD c.policy.defaultTtl)⟩
    | _ => none
  | _ => none

/-- a fill that ends offers its value under its own key, if it was running and came to one -/
theorem Act.finish_offer {c : Setup} {st : St K V E J} {fill : Nat} {outcome : Except E V} {o : Offer K V}
    (h : (Act.finish fill outcome : Act K V E J).offer? c st = some o) :
    ∃ f, st.fill? fill = some f ∧ f.stage = .running ∧ o.key = f.key ∧ outcome = .ok o.value ∧ o.ttl.isSome = true := by
  cases outcome with
  | error e => exact absurd h (by simp [offer?])
  | ok v =>
    simp only [offer?] at h
    split at h
    · rename_i id key ttl job hf
      obtain rfl := Option.some.inj h
      exact ⟨_, hf, rfl, rfl, rfl, rfl⟩
    · exact absurd h (by simp)

/-- a value is offered to the books as they are, or once a key has been let go -/
theorem Offer.books_eq {c : Setup} {st : St K V E J} {act : Act K V E J} {o : Offer K V}
    (h : act.offer? c st = some o) : o.books = st.store ∨ ∃ key fill, o.books = st.store.release key fill := by
  unfold Act.offer? at h
  split at h
  · exact .inl (congrArg books (Option.some.inj h)).symm
  · exact .inl (congrArg books (Option.some.inj h)).symm
  · split at h
    · exact .inr ⟨_, _, (congrArg books (Option.some.inj h)).symm⟩
    · exact absurd h (by simp)
  · exact absurd h (by simp)

theorem Offer.books_entries {c : Setup} {st : St K V E J} {act : Act K V E J} {o : Offer K V}
    (h : act.offer? c st = some o) : o.books.entries = st.store.entries ∧ o.books.nextSeq = st.store.nextSeq := by
  rcases Offer.books_eq h with he | ⟨key, fill, he⟩
  · rw [he]
    exact ⟨rfl, rfl⟩
  · rw [he]
    exact ⟨Store.release_entries st.store key fill, Store.release_nextSeq st.store key fill⟩

variable [Footprint K] [Footprint V]

theorem Offer.books_wf {c : Setup} {st : St K V E J} (hs : st.store.Wf) {act : Act K V E J} {o : Offer K V}
    (h : act.offer? c st = some o) : o.books.Wf := by
  rcases Offer.books_eq h with he | ⟨key, fill, he⟩
  · rw [he]
    exact hs
  · rw [he]
    exact (wf_lasting 0).release st.store key fill hs

namespace Offer

/-- the places that are to be emptied for an offer, unless there can be no room -/
def room? (c : Setup) (o : Offer K V) : Option (List (Place K)) :=
  o.books.room? c.policy.maxSize (entrySize o.key o.value) o.key

/-- the places that are emptied for an offer -/
def victims (c : Setup) (o : Offer K V) : List (Place K) :=
  o.books.victims c.policy.maxSize (entrySize o.key o.value) o.key

/-- the entry that an offer becomes, if it is to be kept and there is room -/
def entry? (c : Setup) (now : Nat) (o : Offer K V) : Option (Entry K V) :=
  if (o.room? c).isSome then
    o.ttl.map fun ttl => ⟨o.key, o.value, now, now + ttl, o.books.nextSeq + 1, entrySize o.key o.value⟩
  else none

end Offer

/-! ## What an act spares, and what it adds -/

namespace Act

/-- whether an entry stays when an act is taken -/
def spares (c : Setup) (st : St K V E J) (act : Act K V E J) (e : Entry K V) : Bool :=
  match act with
  | .get key | .fetch key _ _ => !(decide (e.key = key) && isExpired e.expiresAt st.now)
  | .invalidate key => decide (e.key ≠ key)
  | .clear => false
  | .purge => !isExpired e.expiresAt st.now
  | act => (act.offer? c st).all fun o => decide (e.key ≠ o.key ∧ e.place ∉ o.victims c)

/-- the entries that an act stores, of which there is one at most -/
def adds (c : Setup) (st : St K V E J) (act : Act K V E J) : List (Entry K V) :=
  ((act.offer? c st).bind fun o => o.entry? c st.now).toList

/-- whether an act finds room for what it offers -/
def hasRoom (c : Setup) (st : St K V E J) (act : Act K V E J) : Bool :=
  ((act.offer? c st).bind fun o => o.room? c).isSome

end Act

/-- all that an act does to the entries and to the numbers that they are given -/
structure Edits (c : Setup) (st st' : St K V E J) (act : Act K V E J) : Prop where
  entries : st'.store.entries = st.store.entries.filter (act.spares c st) ++ act.adds c st
  nextSeq : st'.store.nextSeq = if act.hasRoom c st then st.store.nextSeq + 1 else st.store.nextSeq

section

variable {c : Setup} {st st' : St K V E J} {act : Act K V E J}

/-- an act that offers nothing and leaves the entries that it spares -/
theorem Edits.of_no_offer (ho : act.offer? c st = none)
    (hentries : st'.store.entries = st.store.entries.filter (act.spares c st))
    (hseq : st'.store.nextSeq = st.store.nextSeq) : Edits c st st' act := by
  constructor
  · simp only [hentries, Act.adds, ho, Option.bind_none, Option.toList_none, List.append_nil]
  · simp only [hseq, Act.hasRoom, ho, Option.bind_none, Option.isSome_none, Bool.false_eq_true, if_false]

/-- an act that offers nothing and leaves every entry -/
theorem Edits.quiet (ho : act.offer? c st = none) (hspares : ∀ e ∈ st.store.entries, act.spares c st e = true)
    (h : st'.store.entries = st.store.entries ∧ st'.store.nextSeq = st.store.nextSeq) : Edits c st st' act :=
  .of_no_offer ho (h.1.trans (List.filter_eq_self.2 hspares).symm) h.2

/-- an act that offers a value to be kept -/
theorem Edits.of_insert (hs : st.store.Wf) {o : Offer K V} {ttl : Nat} (ho : act.offer? c st = some o)
    (ht : o.ttl = some ttl) (hspares : ∀ e, act.spares c st e = decide (e.key ≠ o.key ∧ e.place ∉ o.victims c))
    (h : st'.store = (o.books.insert c.policy.maxSize st.now o.key o.value ttl).1) : Edits c st st' act := by
  obtain ⟨hentries, hseq⟩ := Offer.books_entries ho
  have hw : o.books.Wf := Offer.books_wf hs ho
  constructor
  · rw [h, hw.insert_entries, Act.adds, ho, funext hspares, Option.bind_some, ← hentries]
    refine congrArg₂ (· ++ ·) rfl ?_
    rw [Offer.entry?, ht]
    cases hr : o.books.room? c.policy.maxSize (entrySize o.key o.value) o.key with
    | none => simp [Offer.room?, hr]
    | some places => simp [Offer.room?, hr]
  · rw [h, hw.insert_nextSeq, Act.hasRoom, ho, Option.bind_some, hseq]
    rfl

theorem set_edits (c : Setup) (hs : st.store.Wf) (key : K) (value : V) (ttl : Option Nat) :
    Edits c st (st.set c key value ttl).1 (.set key value ttl) :=
  .of_insert hs rfl rfl (fun _ => rfl) (set_store c st key value ttl)

theorem squeeze_edits (c : Setup) (hs : st.store.Wf) (key : K) (value : V) :
    Edits c st (st.squeeze c key value) (.squeeze key value) := by
  constructor
  · have hnone : (Act.squeeze key value : Act K V E J).adds c st = [] := by
      simp [Act.adds, Act.offer?, Offer.entry?]
    rw [hnone, List.append_nil]
    exact hs.makeRoom_entries c.policy.maxSize st.now (entrySize key value) key
  · exact hs.makeRoom_nextSeq c.policy.maxSize st.now (entrySize key value) key

theorem finish_edits (c : Setup) (hs : st.store.Wf) (fill : Nat) (outcome : Except E V) :
    Edits c st (st.finish c fill outcome) (.finish fill outcome) := by
  cases hf : st.fill? fill with
  | none =>
    have ho : (Act.finish fill outcome : Act K V E J).offer? c st = none := by
      cases outcome <;> simp [Act.offer?, hf]
    refine .quiet ho (fun e _ => by simp [Act.spares, ho]) ?_
    simp [St.finish, hf]
  | some f =>
    obtain ⟨i, key, ttl, job, stage⟩ := f
    cases outcome with
    | error e =>
      refine .quiet rfl (fun e _ => rfl) ?_
      cases stage with
      | running =>
        simp only [St.finish, hf]
        exact ⟨Store.release_entries st.store key fill, Store.release_nextSeq st.store key fill⟩
      | _ => simp [St.finish, hf]
    | ok v =>
      cases stage with
      | running =>
        have ho : (Act.finish fill (.ok v) : Act K V E J).offer? c st =
            some ⟨st.store.release key fill, key, v, some (ttl.getD c.policy.defaultTtl)⟩ := by
          simp [Act.offer?, hf]
        refine .of_insert hs ho rfl (fun e => by simp only [Act.spares, ho, Option.all_some]) ?_
        rw [finish_running c hf]
        exact set_store c _ key v ttl
      | _ =>
        have ho : (Act.finish fill (.ok v) : Act K V E J).offer? c st = none := by simp [Act.offer?, hf]
        refine .quiet ho (fun e _ => by simp [Act.spares, ho]) ?_
        simp [St.finish, hf]

theorem step_edits (c : Setup) (hs : st.store.Wf) (act : Act K V E J) : Edits c st (step c st act) act := by
  cases act with
  | get key =>
    obtain ⟨hentries, hseq⟩ := get_entries c st key
    exact .of_no_offer rfl (hentries.trans (hs.lookup_entries key st.now)) hseq
  | fetch key ttl job =>
    obtain ⟨hentries, hseq⟩ := fetch_entries c st key ttl job
    exact .of_no_offer rfl (hentries.trans (hs.lookup_entries key st.now)) hseq
  | invalidate key =>
    exact .of_no_offer rfl (Store.erase_entries st.store key) (Store.erase_nextSeq st.store key)
  | clear => exact .of_no_offer rfl (by simp [step, St.clear, Store.clear, Act.spares]) rfl
  | purge =>
    exact .of_no_offer rfl (Store.purge_entries hs st.now).1 (Store.purge_nextSeq st.store st.now)
  | set key value ttl => exact set_edits c hs key value ttl
  | squeeze key value => exact squeeze_edits c hs key value
  | finish fill outcome => exact finish_edits c hs fill outcome
  | crash fill => exact .quiet rfl (fun _ _ => rfl) (crash_entries st fill)
  | advance ms => exact .quiet rfl (fun _ _ => rfl) ⟨rfl, rfl⟩
  | leave caller => exact .quiet rfl (fun _ _ => rfl) ⟨rfl, rfl⟩
  | resume caller =>
    refine .quiet rfl (fun _ _ => rfl) ?_
    simp only [step, St.resume]
    split <;> exact ⟨rfl, rfl⟩
  | begin fill =>
    refine .quiet rfl (fun _ _ => rfl) ?_
    simp only [step, St.begin]
    split <;> exact ⟨rfl, rfl⟩
  | tell fill =>
    refine .quiet rfl (fun _ _ => rfl) ?_
    simp only [step, St.tell]
    split <;> exact ⟨rfl, rfl⟩
  | discard fill =>
    refine .quiet rfl (fun _ _ => rfl) ?_
    simp only [step, St.discard]
    split
    · exact ⟨rfl, rfl⟩
    · exact crash_entries st fill
    · exact ⟨rfl, rfl⟩

end

/-! ## Writing -/

/-- whether an act stores a value under a key, to live for so long -/
inductive Writes (c : Setup) (st : St K V E J) : Act K V E J → K → V → Nat → Prop where
  | set (key : K) (value : V) (ttl : Option Nat) : (st.set c key value ttl).2 = true →
      Writes c st (.set key value ttl) key value (ttl.getD c.policy.defaultTtl)
  | fill (f : Fill K V E J) (value : V) : st.fill? f.id = some f → f.stage = .running →
      ({ st with store := st.store.release f.key f.id }.set c f.key value f.ttl).2 = true →
      Writes c st (.finish f.id (.ok value)) f.key value (f.ttl.getD c.policy.defaultTtl)

theorem set_stored (c : Setup) (st : St K V E J) (key : K) (value : V) (ttl : Option Nat) :
    (st.set c key value ttl).2 = (st.store.room? c.policy.maxSize (entrySize key value) key).isSome := by
  rw [← Store.insert_isSome st.store c.policy.maxSize st.now key value (ttl.getD c.policy.defaultTtl)]
  simp only [St.set]
  split <;> rename_i he <;> rw [he] <;> rfl

section

variable {c : Setup} {st : St K V E J} {act : Act K V E J} {key : K} {value : V} {ttl : Nat}

/-- a value is written if it is offered to be kept and there is room for it -/
theorem writes_iff : Writes c st act key value ttl ↔ ∃ o, act.offer? c st = some o ∧ o.key = key ∧ o.value = value ∧
    o.ttl = some ttl ∧ (o.room? c).isSome = true := by
  constructor
  · intro h
    cases h with
    | set _ _ ttl hstored =>
      rw [set_stored] at hstored
      exact ⟨_, rfl, rfl, rfl, rfl, hstored⟩
    | fill f _ hf hrun hstored =>
      rw [set_stored] at hstored
      obtain ⟨id, key, ttl, job, stage⟩ := f
      subst hrun
      refine ⟨⟨st.store.release key id, key, value, some (ttl.getD c.policy.defaultTtl)⟩, ?_, rfl, rfl, rfl, hstored⟩
      simp only [Act.offer?, hf]
  · rintro ⟨o, ho, rfl, rfl, httl, hroom⟩
    unfold Act.offer? at ho
    split at ho
    · rename_i key value ttl'
      obtain rfl := Option.some.inj ho
      obtain rfl := Option.some.inj httl
      exact .set key value ttl' ((set_stored c st key value ttl').trans hroom)
    · obtain rfl := Option.some.inj ho
      exact absurd httl (by simp)
    · split at ho
      · rename_i fill value _ i key ttl' job hf
        obtain ⟨-, rfl⟩ := fill?_some hf
        obtain rfl := Option.some.inj ho
        obtain rfl := Option.some.inj httl
        refine .fill ⟨i, key, ttl', job, .running⟩ value hf rfl ?_
        exact (set_stored c { st with store := st.store.release key i } key value ttl').trans hroom
      · exact absurd ho (by simp)
    · exact absurd ho (by simp)

/-- what is written is all that is added -/
theorem Writes.adds (h : Writes c st act key value ttl) :
    act.adds c st = [⟨key, value, st.now, st.now + ttl, st.store.nextSeq + 1, entrySize key value⟩] := by
  obtain ⟨o, ho, rfl, rfl, httl, hroom⟩ := writes_iff.1 h
  obtain ⟨-, hseq⟩ := Offer.books_entries ho
  simp only [Act.adds, ho, Option.bind_some, Offer.entry?, hroom, if_true, httl, Option.map_some, hseq,
    Option.toList_some]

theorem mem_adds_iff {e : Entry K V} : e ∈ act.adds c st ↔ ∃ key value ttl, Writes c st act key value ttl ∧
    e = ⟨key, value, st.now, st.now + ttl, st.store.nextSeq + 1, entrySize key value⟩ := by
  constructor
  · intro he
    obtain ⟨o, ho, hentry⟩ := Option.bind_eq_some_iff.1 (Option.mem_toList.1 he)
    obtain ⟨-, hseq⟩ := Offer.books_entries ho
    simp only [Offer.entry?] at hentry
    split_ifs at hentry with hroom
    obtain ⟨ttl, httl, rfl⟩ := Option.map_eq_some_iff.1 hentry
    exact ⟨o.key, o.value, ttl, writes_iff.2 ⟨o, ho, rfl, rfl, httl, hroom⟩, by rw [hseq]⟩
  · rintro ⟨key, value, ttl, h, rfl⟩
    rw [h.adds]
    exact List.mem_singleton_self _

end

end ChainBridge.Cache
