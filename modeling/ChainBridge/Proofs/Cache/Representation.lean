/-
In every state that a cache can reach, its books agree: from a key to its place in the order of expiry and from the
place back to the key are one correspondence read in two directions, and the bytes in use are what the stored entries
are charged. Whatever is done next, no more bytes are given back than are in use.
-/
import Mathlib
import ChainBridge.Proofs.Cache.Books
import ChainBridge.Proofs.Cache.Runs

namespace ChainBridge.Cache

variable {K V E J : Type}

namespace Store

variable {s : Store K V}

/-- from a key to where it stands in the order of expiry -/
def slot? [DecidableEq K] (s : Store K V) (key : K) : Option (Nat × Nat) :=
  (s.find? key).map fun e => (e.expiresAt, e.seq)

/-- from a place in the order of expiry to the key that stands there -/
def keyAt? (s : Store K V) (slot : Nat × Nat) : Option K :=
  (s.index.find? fun p => decide (p.slot = slot)).map (·.key)

variable [Footprint K] [Footprint V]

theorem Wf.keyAt?_eq_some_iff (h : Wf s) (key : K) (slot : Nat × Nat) :
    s.keyAt? slot = some key ↔ ⟨slot.1, slot.2, key⟩ ∈ s.index := by
  constructor
  · intro hs
    obtain ⟨p, hf, rfl⟩ := Option.map_eq_some_iff.1 hs
    have hslot : p.slot = slot := by simpa using List.find?_some hf
    rw [← hslot]
    exact List.mem_of_find?_eq_some hf
  · intro hp
    unfold keyAt?
    cases hf : s.index.find? fun p => decide (p.slot = slot) with
    | none => exact absurd (decide_eq_true rfl) (List.find?_eq_none.1 hf _ hp)
    | some q =>
      have hslot : q.slot = slot := by simpa using List.find?_some hf
      have hq : q = ⟨slot.1, slot.2, key⟩ :=
        List.inj_on_of_nodup_map h.slots (List.mem_of_find?_eq_some hf) hp hslot
      rw [hq]; rfl

variable [DecidableEq K]

theorem Wf.slot?_eq_some_iff (h : Wf s) (key : K) (slot : Nat × Nat) :
    s.slot? key = some slot ↔ ⟨slot.1, slot.2, key⟩ ∈ s.index := by
  constructor
  · intro hs
    obtain ⟨e, hf, rfl⟩ := Option.map_eq_some_iff.1 hs
    obtain ⟨he, rfl⟩ := find?_some hf
    exact h.place_mem he
  · intro hp
    obtain ⟨e, hf, he⟩ := h.find?_place hp
    simp only [Entry.place, Place.mk.injEq] at he
    obtain ⟨h1, h2, -⟩ := he
    have hf' : s.find? key = some e := hf
    simp only [slot?, hf', Option.map_some, h1, h2]

end Store

variable [DecidableEq K] [Footprint K] [Footprint V]

/-- whether no subtraction that an act makes takes away more bytes than there are -/
def Act.Exact (c : Setup) (st : St K V E J) : Act K V E J → Prop
  | .get key | .fetch key _ _ | .invalidate key => st.store.Covers key
  | .set key value _ | .squeeze key value => st.store.MakeRoomExact c.policy.maxSize st.now (entrySize key value) key
  | .purge => Store.PurgeExact st.now st.store.index st.store
  | .finish fill (.ok v) => ∀ f ∈ st.fill? fill,
      (st.store.release f.key fill).MakeRoomExact c.policy.maxSize st.now (entrySize f.key v) f.key
  | _ => True

theorem wf_lasting (max : Nat) : Lasting max (Store.Wf : Store K V → Prop) where
  counted _ c h := h.counted c
  marked _ pending nextFill h := h.marked pending nextFill
  erased _ key h := h.erase key
  cleared s _ := Store.wf_clear s
  purged _ now h := h.purge now
  squeezed _ now size key h := h.makeRoom max now size key
  inserted _ now key value ttl h := h.insert max now key value ttl

theorem run_wf (c : Setup) (acts : List (Act K V E J)) : (run c (.new : St K V E J) acts).store.Wf :=
  run_lasting (wf_lasting c.policy.maxSize) .new acts Store.wf_empty

theorem Store.Wf.exact {st : St K V E J} (h : st.store.Wf) (c : Setup) (act : Act K V E J) : act.Exact c st := by
  cases act with
  | get key => exact h.covers key
  | set key value ttl => exact h.makeRoomExact _ _ _ _
  | squeeze key value => exact h.makeRoomExact _ _ _ _
  | invalidate key => exact h.covers key
  | purge => exact h.purgeExact st.now
  | fetch key ttl job => exact h.covers key
  | finish fill outcome =>
    cases outcome with
    | ok v => exact fun f _ => ((wf_lasting 0).release st.store f.key fill h).makeRoomExact _ _ _ _
    | error e => trivial
  | _ => trivial

/-- **The books agree.** After any sequence of acts, key to slot and slot to key are inverse to each other; no key is
stored twice, the index is in strict order and as long as the entries are many; the sequence numbers are distinct and
none is above the one reached last; the bytes in use are the sum of what the entries are charged, and each is charged
for its key, its value and 96 bytes. No act that may come next takes away more bytes than are there. -/
theorem books_agree (c : Setup) (acts : List (Act K V E J)) :
    let st : St K V E J := run c .new acts
    (∀ key slot, st.store.slot? key = some slot ↔ st.store.keyAt? slot = some key) ∧
    (st.store.entries.map (·.key)).Nodup ∧ st.store.index.Pairwise Place.Before ∧
    st.store.index.length = st.store.entries.length ∧
    (st.store.entries.map (·.seq)).Nodup ∧ (∀ e ∈ st.store.entries, e.seq ≤ st.store.nextSeq) ∧
    st.store.occupied = (st.store.entries.map (·.size)).sum ∧
    (∀ e ∈ st.store.entries, e.size = Footprint.bytes e.key + Footprint.bytes e.value + 96) ∧
    ∀ act : Act K V E J, act.Exact c st := by
  intro st
  have h : st.store.Wf := run_wf c acts
  refine ⟨fun key slot => ?_, h.keys, h.sorted, ?_, h.seqs, h.recent, h.occupied, h.sizes, h.exact c⟩
  · rw [h.slot?_eq_some_iff, h.keyAt?_eq_some_iff]
  · rw [h.listed.length_eq, List.length_map]

end ChainBridge.Cache
