/-
The books of a cache agree with each other.

`Wf` says what the entries, the index and the bytes in use have to do with one another: every entry stands once in the
index under its own expiry and sequence number, the index is in strict order, and the bytes in use are what the entries
are charged. Every operation keeps it. For each there is also a lemma that says which entries it leaves:
- `erase_entries`: all but that of one key;
- `purge_entries`: those that have not expired;
- `evict_entries`: those whose places are not victims.

The markers of keys are no concern of any of these: each leaves `marks` as they are.

`Covers`, `PurgeExact`, `PlanExact`, `EvictExact` and `MakeRoomExact` say, along the recursion of each removal, that no
more bytes are given back than are in use, so that the subtraction never stops at zero.
-/
import Mathlib
import ChainBridge.Cache.Store

namespace ChainBridge.Cache

variable {K V : Type}

def Entry.place (e : Entry K V) : Place K := ⟨e.expiresAt, e.seq, e.key⟩

/-- what the index is ordered by -/
def Place.slot (p : Place K) : Nat × Nat := (p.expiresAt, p.seq)

/-- nearest expiry first, then oldest insertion -/
def Place.Before (p q : Place K) : Prop := p.expiresAt < q.expiresAt ∨ (p.expiresAt = q.expiresAt ∧ p.seq < q.seq)

theorem Place.Before.slot_ne {p q : Place K} (h : p.Before q) : p.slot ≠ q.slot := by
  intro he
  obtain ⟨h1, h2⟩ := Prod.mk.inj he
  rcases h with h | ⟨-, h⟩ <;> omega

theorem Place.Before.le {p q : Place K} (h : p.Before q) : p.expiresAt ≤ q.expiresAt := by
  rcases h with h | ⟨h, -⟩ <;> omega

/-- a member with an image of its own stands in front of the others, up to order -/
theorem perm_cons_filter {α β : Type} [DecidableEq β] (f : α → β) {l : List α} {a : α} (hnd : (l.map f).Nodup)
    (ha : a ∈ l) : l.Perm (a :: l.filter fun b => decide (f b ≠ f a)) := by
  induction l with
  | nil => exact absurd ha (List.not_mem_nil)
  | cons b l ih =>
    rw [List.map_cons, List.nodup_cons] at hnd
    by_cases hb : f b = f a
    · have hall : ∀ c ∈ l, f c ≠ f a := fun c hc he => hnd.1 (List.mem_map.2 ⟨c, hc, he.trans hb.symm⟩)
      have hba : b = a := by
        rcases List.mem_cons.1 ha with rfl | ha
        · rfl
        · exact absurd rfl (hall a ha)
      subst hba
      rw [List.filter_cons_of_neg (by simp), List.filter_eq_self.2 fun c hc => by simpa using hall c hc]
    · have ha' : a ∈ l := by
        rcases List.mem_cons.1 ha with rfl | ha
        · exact absurd rfl hb
        · exact ha
      rw [List.filter_cons_of_pos (by simpa using hb)]
      exact ((ih hnd.2 ha').cons b).trans (List.Perm.swap a b _)

namespace Store

variable {s : Store K V}

theorem unlist_index (s : Store K V) (expiresAt seq : Nat) :
    (s.unlist expiresAt seq).index = s.index.filter fun p => decide (p.slot ≠ (expiresAt, seq)) := by
  simp only [unlist, Place.slot, ne_eq, Prod.mk.injEq]

theorem listPlace_perm (p : Place K) (l : List (Place K)) : (listPlace p l).Perm (p :: l) := by
  induction l with
  | nil => exact List.Perm.refl _
  | cons q rest ih =>
    simp only [listPlace]
    split_ifs
    · exact List.Perm.refl _
    · exact (ih.cons q).trans (List.Perm.swap p q rest)

theorem listPlace_sorted (p : Place K) (l : List (Place K)) (hl : l.Pairwise Place.Before)
    (hp : ∀ q ∈ l, q.seq < p.seq) : (listPlace p l).Pairwise Place.Before := by
  induction l with
  | nil => exact List.pairwise_singleton _ _
  | cons q rest ih =>
    have hq := hp q List.mem_cons_self
    obtain ⟨hfirst, hrest⟩ := List.pairwise_cons.1 hl
    simp only [listPlace]
    split_ifs with hle
    · have hpq : p.Before q := by
        rcases hle with hle | ⟨_, hle⟩
        · exact Or.inl hle
        · omega
      refine List.pairwise_cons.2 ⟨fun r hr => ?_, hl⟩
      rcases List.mem_cons.1 hr with rfl | hr
      · exact hpq
      · have hqr := hfirst r hr
        have hr' := hp r (List.mem_cons_of_mem q hr)
        simp only [Place.Before] at hpq hqr ⊢
        omega
    · refine List.pairwise_cons.2 ⟨fun r hr => ?_, ih hrest fun r hr => hp r (List.mem_cons_of_mem q hr)⟩
      rcases List.mem_cons.1 ((listPlace_perm p rest).mem_iff.1 hr) with rfl | hr
      · simp only [Place.Before]
        omega
      · exact hfirst r hr

/-! ## The invariant -/

section

variable [Footprint K] [Footprint V]

structure Wf (s : Store K V) : Prop where
  keys : (s.entries.map (·.key)).Nodup
  seqs : (s.entries.map (·.seq)).Nodup
  recent : ∀ e ∈ s.entries, e.seq ≤ s.nextSeq
  sizes : ∀ e ∈ s.entries, e.size = entrySize e.key e.value
  listed : s.index.Perm (s.entries.map Entry.place)
  sorted : s.index.Pairwise Place.Before
  occupied : s.occupied = (s.entries.map (·.size)).sum

theorem wf_empty : Wf (empty : Store K V) := by
  constructor <;> simp [empty]

theorem wf_clear (s : Store K V) : Wf s.clear := by
  constructor <;> simp [Store.clear]

theorem Wf.counted (h : Wf s) (c : Counters) : Wf { s with counters := c } :=
  ⟨h.keys, h.seqs, h.recent, h.sizes, h.listed, h.sorted, h.occupied⟩

theorem Wf.marked (h : Wf s) (pending : List (Marker K)) (nextFill : Nat) :
    Wf { s with pending := pending, nextFill := nextFill } :=
  ⟨h.keys, h.seqs, h.recent, h.sizes, h.listed, h.sorted, h.occupied⟩

theorem Wf.slots (h : Wf s) : (s.index.map Place.slot).Nodup :=
  List.pairwise_map.2 (h.sorted.imp Place.Before.slot_ne)

theorem Wf.place_mem (h : Wf s) {e : Entry K V} (he : e ∈ s.entries) : e.place ∈ s.index :=
  h.listed.mem_iff.2 (List.mem_map_of_mem he)

/-- behind a place that has not expired nothing has -/
theorem Wf.all_live {p : Place K} {rest : List (Place K)} {now : Nat} (h : Wf { s with index := p :: rest })
    (hp : isExpired p.expiresAt now = false) : ∀ e ∈ s.entries, isExpired e.expiresAt now = false := by
  intro e he
  have hle : p.expiresAt ≤ e.expiresAt := by
    rcases List.mem_cons.1 (h.place_mem he) with hep | hep
    · rw [← hep]; exact le_rfl
    · exact ((List.pairwise_cons.1 h.sorted).1 _ hep).le
  simp only [isExpired, decide_eq_false_iff_not, Nat.not_le] at hp ⊢
  omega

/-- a value that is stored under a free key with a new sequence number keeps the books in order -/
theorem Wf.put (h : Wf s) {key : K} (hfree : ∀ e ∈ s.entries, e.key ≠ key ∧ e.seq < s.nextSeq) (value : V)
    (now ttl : Nat) : Wf (s.put key value now ttl (entrySize key value)) := by
  have hmem : ∀ e ∈ (s.put key value now ttl (entrySize key value)).entries,
      e ∈ s.entries ∨ e = ⟨key, value, now, now + ttl, s.nextSeq, entrySize key value⟩ := by
    intro e he
    simpa [Store.put] using he
  refine ⟨?_, ?_, ?_, ?_, ?_, ?_, ?_⟩
  · simp only [Store.put, List.map_append, List.map_cons, List.map_nil]
    refine List.nodup_append.2 ⟨h.keys, List.nodup_singleton _, ?_⟩
    intro a ha b hb
    obtain ⟨e, he, rfl⟩ := List.mem_map.1 ha
    rw [List.mem_singleton.1 hb]
    exact (hfree e he).1
  · simp only [Store.put, List.map_append, List.map_cons, List.map_nil]
    refine List.nodup_append.2 ⟨h.seqs, List.nodup_singleton _, ?_⟩
    intro a ha b hb
    obtain ⟨e, he, rfl⟩ := List.mem_map.1 ha
    rw [List.mem_singleton.1 hb]
    exact (hfree e he).2.ne
  · intro e he
    rcases hmem e he with he | rfl
    · exact h.recent e he
    · exact le_rfl
  · intro e he
    rcases hmem e he with he | rfl
    · exact h.sizes e he
    · rfl
  · simp only [Store.put, List.map_append, List.map_cons, List.map_nil]
    have hp := (listPlace_perm ⟨now + ttl, s.nextSeq, key⟩ s.index).trans (h.listed.cons _)
    exact hp.trans (List.perm_append_singleton _ _).symm
  · apply listPlace_sorted _ _ h.sorted
    intro q hq
    obtain ⟨e, he, rfl⟩ := List.mem_map.1 (h.listed.mem_iff.1 hq)
    exact (hfree e he).2
  · simp [Store.put, h.occupied]

end

/-! ## Entries by key -/

variable [DecidableEq K]

theorem find?_some {key : K} {e : Entry K V} (h : s.find? key = some e) : e ∈ s.entries ∧ e.key = key :=
  ⟨List.mem_of_find?_eq_some h, by simpa using List.find?_some h⟩

theorem find?_none {key : K} (h : s.find? key = none) : ∀ e ∈ s.entries, e.key ≠ key := by
  intro e he
  simpa using List.find?_eq_none.1 h e he

theorem find?_eq_none_of {key : K} (h : ∀ e ∈ s.entries, e.key ≠ key) : s.find? key = none :=
  List.find?_eq_none.2 fun e he => by simpa using h e he

/-- an entry is the one that its key is found with -/
theorem find?_of_mem (hk : (s.entries.map (·.key)).Nodup) {e : Entry K V} (he : e ∈ s.entries) :
    s.find? e.key = some e := by
  cases hf : s.find? e.key with
  | none => exact absurd rfl (find?_none hf e he)
  | some e' =>
    obtain ⟨he', hkey⟩ := find?_some hf
    rw [List.inj_on_of_nodup_map hk he' he hkey]

theorem drop_entries (s : Store K V) (key : K) :
    (s.drop key).entries = s.entries.filter fun e => decide (e.key ≠ key) := by
  unfold drop
  split
  · rename_i hf
    exact (List.filter_eq_self.2 fun e he => by simpa using find?_none hf e he).symm
  · rfl

theorem erase_entries (s : Store K V) (key : K) :
    (s.erase key).entries = s.entries.filter fun e => decide (e.key ≠ key) := by
  unfold erase
  split
  · rename_i hf
    exact (List.filter_eq_self.2 fun e he => by simpa using find?_none hf e he).symm
  · exact drop_entries s key

theorem erase_index {key : K} {e : Entry K V} (hf : s.find? key = some e) :
    (s.erase key).index = s.index.filter fun p => decide (p.slot ≠ (e.expiresAt, e.seq)) := by
  simp only [erase, hf, unlist_index, drop]

theorem find?_erase (s : Store K V) (key : K) : (s.erase key).find? key = none := by
  apply find?_eq_none_of
  intro e he
  rw [erase_entries] at he
  simpa using (List.mem_filter.1 he).2

theorem evict_cons_fst (now : Nat) (p : Place K) (rest : List (Place K)) (s : Store K V) (e : Entry K V)
    (hf : s.find? p.key = some e) :
    (evict now (p :: rest) s).1 = (evict now rest ((s.drop p.key).unlist p.expiresAt p.seq)).1 := by
  simp only [evict, hf]
  split_ifs <;> rfl

/-! ## What removal and insertion leave alone -/

/-- what the books say about fills -/
def marks (s : Store K V) : List (Marker K) × Nat := (s.pending, s.nextFill)

theorem drop_marks (s : Store K V) (key : K) : (s.drop key).marks = s.marks := by
  unfold drop
  split <;> rfl

theorem erase_marks (s : Store K V) (key : K) : (s.erase key).marks = s.marks := by
  unfold erase
  split
  · rfl
  · exact drop_marks s key

theorem purgeFrom_marks (now : Nat) (l : List (Place K)) (s : Store K V) : (purgeFrom now l s).1.marks = s.marks := by
  induction l generalizing s with
  | nil => rfl
  | cons p rest ih =>
    rw [purgeFrom]
    by_cases hp : isExpired p.expiresAt now = true
    · rw [if_pos hp]
      exact (ih (s.drop p.key)).trans (drop_marks s p.key)
    · rw [if_neg hp]
      rfl

theorem purge_marks (s : Store K V) (now : Nat) : (s.purge now).1.marks = s.marks := purgeFrom_marks now s.index s

theorem lookup_marks (s : Store K V) (key : K) (now : Nat) : (s.lookup key now).1.marks = s.marks := by
  unfold lookup
  cases s.find? key with
  | none => rfl
  | some e =>
    simp only
    split_ifs
    · exact erase_marks s key
    · rfl

theorem evict_marks (now : Nat) (victims : List (Place K)) (s : Store K V) :
    (evict now victims s).1.marks = s.marks := by
  induction victims generalizing s with
  | nil => rfl
  | cons p rest ih =>
    cases hf : s.find? p.key with
    | none =>
      simp only [evict, hf]
      exact ih (s.unlist p.expiresAt p.seq)
    | some e =>
      rw [evict_cons_fst now p rest s e hf]
      exact (ih _).trans (drop_marks s p.key)

theorem makeRoom_marks (s : Store K V) (max now size : Nat) (key : K) :
    (s.makeRoom max now size key).1.marks = s.marks := by
  simp only [makeRoom]
  split
  · exact erase_marks s key
  · rename_i victims _
    exact (evict_marks now victims (s.erase key)).trans (erase_marks s key)

theorem insert_marks [Footprint K] [Footprint V] (s : Store K V) (max now : Nat) (key : K) (value : V) (ttl : Nat) :
    (s.insert max now key value ttl).1.marks = s.marks := by
  have hroom := makeRoom_marks s max now (entrySize key value) key
  unfold insert
  simp only
  split
  · rename_i s' he
    rw [he] at hroom
    exact hroom
  · rename_i s' freed he
    rw [he] at hroom
    exact hroom

/-! ## What removals give back -/

/-- taking out the entry of a key gives back no more bytes than are in use -/
def Covers (s : Store K V) (key : K) : Prop := ∀ e ∈ s.find? key, e.size ≤ s.occupied

/-- no sweep along a list of places gives back more bytes than are in use -/
def PurgeExact (now : Nat) : List (Place K) → Store K V → Prop
  | [], _ => True
  | p :: rest, s => isExpired p.expiresAt now = true → s.Covers p.key ∧ PurgeExact now rest (s.drop p.key)

/-- no victim that is picked along a list of places takes more off the projected bytes than there are -/
def PlanExact (s : Store K V) (needed max : Nat) : List (Place K) → Nat → Prop
  | [], _ => True
  | p :: rest, projected =>
    if projected + needed ≤ max then True
    else if s.isPending p.key then s.PlanExact needed max rest projected
    else
      match s.find? p.key with
      | none => s.PlanExact needed max rest projected
      | some e => e.size ≤ projected ∧ s.PlanExact needed max rest (projected - e.size)

/-- no place that is emptied gives back more bytes than are in use -/
def EvictExact (now : Nat) : List (Place K) → Store K V → Prop
  | [], _ => True
  | p :: rest, s => s.Covers p.key ∧ EvictExact now rest ((s.drop p.key).unlist p.expiresAt p.seq)

/-- nothing that is done to make room takes away more bytes than there are -/
def MakeRoomExact (s : Store K V) (max now size : Nat) (key : K) : Prop :=
  s.Covers key ∧ (size ≤ max → (s.erase key).PlanExact size max (s.erase key).index (s.erase key).occupied ∧
    ∀ victims ∈ (s.erase key).planEviction size max, EvictExact now victims (s.erase key))

/-! ## Victims -/

theorem plan_sublist (s : Store K V) (needed max : Nat) (l : List (Place K)) (projected : Nat) :
    (s.plan needed max l projected).1.Sublist l := by
  induction l generalizing projected with
  | nil => exact List.Sublist.refl _
  | cons p rest ih =>
    simp only [plan]
    split_ifs with hfit hpending
    · exact List.nil_sublist _
    · exact (ih projected).cons p
    · cases s.find? p.key with
      | none => exact (ih projected).cons p
      | some e => exact (ih (projected - e.size)).cons_cons p

theorem planEviction_sublist {needed max : Nat} {victims : List (Place K)}
    (hv : s.planEviction needed max = some victims) : victims.Sublist s.index := by
  simp only [planEviction] at hv
  split_ifs at hv
  rw [← Option.some.inj hv]
  exact plan_sublist s needed max s.index s.occupied

/-- the bytes behind a place -/
def sizeAt (s : Store K V) (p : Place K) : Nat := ((s.find? p.key).map (·.size)).getD 0

theorem planExact_of_sum_le (s : Store K V) (needed max : Nat) (l : List (Place K)) (projected : Nat)
    (hl : (l.map s.sizeAt).sum ≤ projected) : s.PlanExact needed max l projected := by
  induction l generalizing projected with
  | nil => trivial
  | cons p rest ih =>
    rw [List.map_cons, List.sum_cons] at hl
    rw [PlanExact]
    split_ifs
    · exact ih projected (by omega)
    · cases hf : s.find? p.key with
      | none => exact ih projected (by omega)
      | some e =>
        have hsize : s.sizeAt p = e.size := by simp [sizeAt, hf]
        exact ⟨by omega, ih (projected - e.size) (by omega)⟩

/-! ## What belongs to one key -/

variable [Footprint K] [Footprint V]

/-- every place is that of the entry of its key -/
theorem Wf.find?_place (h : Wf s) {p : Place K} (hp : p ∈ s.index) : ∃ e, s.find? p.key = some e ∧ e.place = p := by
  obtain ⟨e, he, rfl⟩ := List.mem_map.1 (h.listed.mem_iff.1 hp)
  exact ⟨e, find?_of_mem h.keys he, rfl⟩

/-- the entries are that of a key and the others -/
theorem Wf.entries_perm (h : Wf s) {key : K} {e : Entry K V} (hf : s.find? key = some e) :
    s.entries.Perm (e :: s.entries.filter fun e => decide (e.key ≠ key)) := by
  obtain ⟨he, rfl⟩ := find?_some hf
  exact perm_cons_filter (·.key) h.keys he

/-- the index is the place of a key's entry and the others -/
theorem Wf.index_perm (h : Wf s) {key : K} {e : Entry K V} (hf : s.find? key = some e) :
    s.index.Perm (e.place :: s.index.filter fun p => decide (p.slot ≠ (e.expiresAt, e.seq))) :=
  perm_cons_filter Place.slot h.slots (h.place_mem (find?_some hf).1)

/-- the bytes in use are those of a key's entry and of the others -/
theorem Wf.occupied_eq (h : Wf s) {key : K} {e : Entry K V} (hf : s.find? key = some e) :
    s.occupied = e.size + ((s.entries.filter fun e => decide (e.key ≠ key)).map (·.size)).sum := by
  rw [h.occupied, ((h.entries_perm hf).map (·.size)).sum_eq, List.map_cons, List.sum_cons]

/-! ## Removal of one entry -/

theorem Wf.covers (h : Wf s) (key : K) : s.Covers key := by
  intro e hf
  rw [h.occupied_eq hf]
  exact Nat.le_add_right _ _

theorem Wf.erase (h : Wf s) (key : K) : Wf (s.erase key) := by
  cases hf : s.find? key with
  | none =>
    have he : s.erase key = s := by simp only [Store.erase, hf]
    rw [he]; exact h
  | some e =>
    have hsub : (s.erase key).entries.Sublist s.entries := by
      rw [erase_entries]; exact List.filter_sublist
    have hseq : (s.erase key).nextSeq = s.nextSeq := by
      simp only [Store.erase, hf, drop, unlist]
    refine ⟨(hsub.map _).nodup h.keys, (hsub.map _).nodup h.seqs, ?_, ?_, ?_, ?_, ?_⟩
    · intro e' he'; rw [hseq]; exact h.recent e' (hsub.subset he')
    · intro e' he'; exact h.sizes e' (hsub.subset he')
    · have hp := (h.index_perm hf).symm.trans (h.listed.trans ((h.entries_perm hf).map Entry.place))
      rw [erase_index hf, erase_entries]
      exact (List.perm_cons _).1 hp
    · rw [erase_index hf]; exact h.sorted.sublist List.filter_sublist
    · have hocc : (s.erase key).occupied = s.occupied - e.size := by
        simp only [Store.erase, hf, drop, unlist]
      rw [hocc, h.occupied_eq hf, erase_entries]
      exact Nat.add_sub_cancel_left _ _

/-! ## Sweeping -/

/-- taking an entry out from the front of the index is erasing its key -/
theorem drop_front {p : Place K} {rest : List (Place K)} (h : Wf { s with index := p :: rest }) :
    { s.drop p.key with index := rest } = ({ s with index := p :: rest } : Store K V).erase p.key := by
  obtain ⟨e, hf, hp⟩ := h.find?_place List.mem_cons_self
  have hf' : s.find? p.key = some e := hf
  have hrest : (p :: rest).filter (fun q => decide (q.slot ≠ (e.expiresAt, e.seq))) = rest := by
    have hslot : p.slot = (e.expiresAt, e.seq) := by rw [← hp]; rfl
    rw [List.filter_cons_of_neg (by simpa using hslot), List.filter_eq_self]
    intro q hq
    have hne := ((List.pairwise_cons.1 h.sorted).1 q hq).slot_ne
    rw [hslot] at hne
    simpa using hne.symm
  simp only [Store.erase, hf, drop, hf', unlist]
  simp only [Place.slot, ne_eq, Prod.mk.injEq] at hrest
  rw [hrest]

theorem purgeFrom_spec (now : Nat) (l : List (Place K)) (s : Store K V) (h : Wf { s with index := l }) :
    Wf (purgeFrom now l s).1 ∧
    (purgeFrom now l s).1.entries = s.entries.filter (fun e => !isExpired e.expiresAt now) ∧
    (purgeFrom now l s).2 = s.entries.countP (fun e => isExpired e.expiresAt now) ∧ PurgeExact now l s := by
  induction l generalizing s with
  | nil =>
    have hnil : s.entries = [] := by simpa using h.listed.symm.eq_nil
    refine ⟨h, ?_, ?_, trivial⟩
    · simp [purgeFrom, hnil]
    · simp [purgeFrom, hnil]
  | cons p rest ih =>
    simp only [purgeFrom]
    cases hp : isExpired p.expiresAt now with
    | false =>
      have hlive := h.all_live hp
      refine ⟨h, ?_, ?_, fun hx => absurd hx (by simp [hp])⟩
      · exact (List.filter_eq_self.2 fun e he => by simp [hlive e he]).symm
      · exact (List.countP_eq_zero.2 fun e he => by simp [hlive e he]).symm
    | true =>
      obtain ⟨e, hf, he⟩ := h.find?_place List.mem_cons_self
      have hf' : s.find? p.key = some e := hf
      have hexp : isExpired e.expiresAt now = true := by rw [← he] at hp; exact hp
      have hw : Wf { s.drop p.key with index := rest } := drop_front h ▸ h.erase p.key
      obtain ⟨h1, h2, h3, h4⟩ := ih (s.drop p.key) hw
      simp only [if_true]
      refine ⟨h1, ?_, ?_, fun _ => ⟨h.covers p.key, h4⟩⟩
      · rw [h2, drop_entries, List.filter_filter]
        apply List.filter_congr
        intro e' he'
        by_cases hk : e'.key = p.key
        · have hee : e' = e := by
            have := find?_of_mem h.keys (s := { s with index := p :: rest }) he'
            rw [hk, hf] at this
            exact (Option.some.inj this).symm
          simp [hee, hexp]
        · simp [hk]
      · have hcount := (h.entries_perm hf).countP_eq (fun e => isExpired e.expiresAt now)
        rw [List.countP_cons, if_pos hexp] at hcount
        rw [h3, hf', drop_entries]
        exact hcount.symm

/-- a sweep leaves what has not expired, and counts the rest -/
theorem purge_entries (h : Wf s) (now : Nat) :
    (s.purge now).1.entries = s.entries.filter (fun e => !isExpired e.expiresAt now) ∧
    (s.purge now).2 = s.entries.countP fun e => isExpired e.expiresAt now :=
  ⟨(purgeFrom_spec now s.index s h).2.1, (purgeFrom_spec now s.index s h).2.2.1⟩

theorem Wf.purge (h : Wf s) (now : Nat) : Wf (s.purge now).1 := (purgeFrom_spec now s.index s h).1.counted _

theorem Wf.purgeExact (h : Wf s) (now : Nat) : PurgeExact now s.index s := (purgeFrom_spec now s.index s h).2.2.2

/-! ## Making room -/

/-- the bytes in use are those behind the places of the index -/
theorem Wf.sum_sizeAt (h : Wf s) : (s.index.map s.sizeAt).sum = s.occupied := by
  rw [h.occupied, (h.listed.map s.sizeAt).sum_eq, List.map_map]
  congr 1
  apply List.map_congr_left
  intro e he
  have hf : s.find? e.place.key = some e := find?_of_mem h.keys he
  simp [sizeAt, hf]

theorem Wf.planExact (h : Wf s) (needed max : Nat) : s.PlanExact needed max s.index s.occupied :=
  planExact_of_sum_le s needed max s.index s.occupied h.sum_sizeAt.le

/-- emptying a place is erasing its key -/
theorem Wf.empty_place (h : Wf s) {p : Place K} (hp : p ∈ s.index) :
    (s.drop p.key).unlist p.expiresAt p.seq = s.erase p.key := by
  obtain ⟨e, hf, rfl⟩ := h.find?_place hp
  simp only [Store.erase, hf]
  rfl

/-- the victims behind the first are places of the index without it -/
theorem Wf.sublist_erase (h : Wf s) {p : Place K} {rest : List (Place K)} (hv : (p :: rest).Sublist s.index) :
    rest.Sublist (s.erase p.key).index := by
  obtain ⟨e, hf, hp⟩ := h.find?_place (hv.subset List.mem_cons_self)
  have hslot : (e.expiresAt, e.seq) = p.slot := by rw [← hp]; rfl
  have hnd := (hv.map Place.slot).nodup h.slots
  rw [List.map_cons, List.nodup_cons] at hnd
  have hrest : (p :: rest).filter (fun q => decide (q.slot ≠ p.slot)) = rest := by
    rw [List.filter_cons_of_neg (by simp), List.filter_eq_self]
    intro q hq
    have hne : q.slot ≠ p.slot := fun he => hnd.1 (List.mem_map.2 ⟨q, hq, he⟩)
    simpa using hne
  rw [erase_index hf, hslot, ← hrest]
  exact hv.filter _

theorem evict_spec (now : Nat) (victims : List (Place K)) (s : Store K V) (h : Wf s)
    (hv : victims.Sublist s.index) :
    Wf (evict now victims s).1 ∧
    (evict now victims s).1.entries = s.entries.filter (fun e => decide (e.place ∉ victims)) ∧
    (evict now victims s).1.nextSeq = s.nextSeq ∧ EvictExact now victims s := by
  induction victims generalizing s with
  | nil => exact ⟨h, (List.filter_eq_self.2 fun _ _ => by simp).symm, rfl, trivial⟩
  | cons p rest ih =>
    have hp : p ∈ s.index := hv.subset List.mem_cons_self
    obtain ⟨e, hf, he⟩ := h.find?_place hp
    obtain ⟨h1, h2, h3, h4⟩ := ih (s.erase p.key) (h.erase p.key) (h.sublist_erase hv)
    rw [evict_cons_fst now p rest s e hf, h.empty_place hp]
    refine ⟨h1, ?_, ?_, h.covers p.key, ?_⟩
    · rw [h2, erase_entries, List.filter_filter]
      apply List.filter_congr
      intro e' he'
      have hkey : e'.key = p.key ↔ e'.place = p := by
        constructor
        · intro hk
          have := find?_of_mem h.keys he'
          rw [hk, hf] at this
          rw [← Option.some.inj this, he]
        · intro hk; rw [← hk]; rfl
      simp [hkey, Bool.and_comm]
    · rw [h3]
      simp only [Store.erase, hf, drop, unlist]
    · rw [h.empty_place hp]; exact h4

/-- emptying places leaves the entries that are not there -/
theorem evict_entries (h : Wf s) (now : Nat) {victims : List (Place K)} (hv : victims.Sublist s.index) :
    (evict now victims s).1.entries = s.entries.filter fun e => decide (e.place ∉ victims) :=
  (evict_spec now victims s h hv).2.1

theorem Wf.makeRoomExact (h : Wf s) (max now size : Nat) (key : K) : s.MakeRoomExact max now size key :=
  ⟨h.covers key, fun _ => ⟨(h.erase key).planExact size max, fun victims hv =>
    (evict_spec now victims (s.erase key) (h.erase key) (planEviction_sublist hv)).2.2.2⟩⟩

theorem Wf.makeRoom (h : Wf s) (max now size : Nat) (key : K) : Wf (s.makeRoom max now size key).1 := by
  simp only [Store.makeRoom]
  have he : Wf (s.erase key) := h.erase key
  cases hplan : (if size ≤ max then (s.erase key).planEviction size max else none) with
  | none => exact he.counted _
  | some victims =>
    split_ifs at hplan
    obtain ⟨hw, -, -, -⟩ := evict_spec now victims (s.erase key) he (planEviction_sublist hplan)
    exact ⟨hw.keys, hw.seqs, fun e' he' => Nat.le_succ_of_le (hw.recent e' he'), hw.sizes, hw.listed, hw.sorted,
      hw.occupied⟩

/-- where room was made, the key is free and a sequence number above all others has been reached -/
theorem Wf.fresh (h : Wf s) {max now size : Nat} {key : K} {freed : Freed}
    (hr : (s.makeRoom max now size key).2 = some freed) :
    ∀ e ∈ (s.makeRoom max now size key).1.entries, e.key ≠ key ∧ e.seq < (s.makeRoom max now size key).1.nextSeq := by
  simp only [Store.makeRoom] at hr ⊢
  have he : Wf (s.erase key) := h.erase key
  cases hplan : (if size ≤ max then (s.erase key).planEviction size max else none) with
  | none => rw [hplan] at hr; exact absurd hr (by simp)
  | some victims =>
    split_ifs at hplan
    obtain ⟨hw, hentries, hseq, -⟩ := evict_spec now victims (s.erase key) he (planEviction_sublist hplan)
    intro e' he'
    refine ⟨?_, Nat.lt_succ_of_le (hw.recent e' he')⟩
    have hmem : e' ∈ (s.erase key).entries := by
      have he'' : e' ∈ (evict now victims (s.erase key)).1.entries := he'
      rw [hentries] at he''
      exact (List.mem_filter.1 he'').1
    exact find?_none (find?_erase s key) e' hmem

/-! ## Insertion -/

theorem Wf.insert (h : Wf s) (max now : Nat) (key : K) (value : V) (ttl : Nat) :
    Wf (s.insert max now key value ttl).1 := by
  have hroom := h.makeRoom max now (entrySize key value) key
  simp only [Store.insert]
  cases hr : s.makeRoom max now (entrySize key value) key with
  | mk s' freed =>
    rw [hr] at hroom
    cases freed with
    | none => exact hroom
    | some freed =>
      have hsome : (s.makeRoom max now (entrySize key value) key).2 = some freed := by rw [hr]
      have hfresh := h.fresh hsome
      rw [hr] at hfresh
      exact hroom.put hfresh value now ttl

end Store

end ChainBridge.Cache
