/-
What the operations on the books leave, entry by entry.

Making room, for whatever reason, takes out the entry of the key and those at the `victims`, so what it leaves is a
part of what was there (`Wf.makeRoom_entries`); an insertion that finds room puts one entry behind it
(`Wf.insert_entries`). Whether there is room for an entry, and which places that takes, is `room?`.
-/
import Mathlib
import ChainBridge.Proofs.Cache.Books

namespace ChainBridge.Cache.Store

variable {K V : Type} [DecidableEq K] {s : Store K V}

/-! ## One key among the entries that are left -/

/-- of entries that are left by a filter, a key has its own if that one passes -/
theorem find?_of_filter {s' : Store K V} {p : Entry K V → Bool} (hk : (s.entries.map (·.key)).Nodup)
    (h : s'.entries = s.entries.filter p) (key : K) : s'.find? key = (s.find? key).filter p := by
  cases hf : s.find? key with
  | none =>
    refine find?_eq_none_of fun e he => find?_none hf e ?_
    rw [h] at he
    exact (List.mem_filter.1 he).1
  | some e =>
    obtain ⟨he, rfl⟩ := find?_some hf
    cases hp : p e with
    | true =>
      have hmem : e ∈ s'.entries := by
        rw [h]
        exact List.mem_filter.2 ⟨he, hp⟩
      have hk' : (s'.entries.map (·.key)).Nodup := by
        rw [h]
        exact (List.filter_sublist.map _).nodup hk
      rw [find?_of_mem hk' hmem, Option.filter_some, if_pos hp]
    | false =>
      rw [Option.filter_some, if_neg (by simp [hp])]
      refine find?_eq_none_of fun e' he' hkey => ?_
      rw [h] at he'
      obtain ⟨hmem, hp'⟩ := List.mem_filter.1 he'
      rw [List.inj_on_of_nodup_map hk hmem he hkey, hp] at hp'
      exact absurd hp' (by simp)

theorem release_entries (s : Store K V) (key : K) (fill : Nat) : (s.release key fill).entries = s.entries := by
  unfold release
  split
  · rfl
  · split_ifs <;> rfl

theorem erase_nextSeq (s : Store K V) (key : K) : (s.erase key).nextSeq = s.nextSeq := by
  unfold erase drop
  split <;> rfl

/-! ## Victims -/

/-- the places that are to be emptied for an entry of the given size, unless there can be no room -/
def room? (s : Store K V) (max size : Nat) (key : K) : Option (List (Place K)) :=
  if size ≤ max then (s.erase key).planEviction size max else none

/-- the places that are emptied for an entry of the given size -/
def victims (s : Store K V) (max size : Nat) (key : K) : List (Place K) := (s.room? max size key).getD []

section

variable {max size : Nat} {key : K} {places : List (Place K)}

theorem victims_of_room? (h : s.room? max size key = some places) : s.victims max size key = places := by
  rw [victims, h, Option.getD_some]

theorem victims_of_no_room (h : s.room? max size key = none) : s.victims max size key = [] := by
  rw [victims, h, Option.getD_none]

theorem room?_sublist (h : s.room? max size key = some places) : places.Sublist (s.erase key).index := by
  unfold room? at h
  split_ifs at h
  exact planEviction_sublist h

theorem makeRoom_of_room? (now : Nat) (h : s.room? max size key = some places) :
    ∃ c, s.makeRoom max now size key =
      ({ (evict now places (s.erase key)).1 with
          counters := c, nextSeq := (evict now places (s.erase key)).1.nextSeq + 1 },
        some (evict now places (s.erase key)).2) := by
  unfold room? at h
  simp only [makeRoom, h]
  exact ⟨_, rfl⟩

theorem makeRoom_of_no_room (now : Nat) (h : s.room? max size key = none) :
    ∃ c, s.makeRoom max now size key = ({ s.erase key with counters := c }, none) := by
  unfold room? at h
  simp only [makeRoom, h]
  exact ⟨_, rfl⟩

theorem makeRoom_isSome (s : Store K V) (max now size : Nat) (key : K) :
    (s.makeRoom max now size key).2.isSome = (s.room? max size key).isSome := by
  cases hr : s.room? max size key with
  | none =>
    obtain ⟨c, he⟩ := makeRoom_of_no_room now hr
    rw [he]
    rfl
  | some places =>
    obtain ⟨c, he⟩ := makeRoom_of_room? now hr
    rw [he]
    rfl

end

section

variable [Footprint K] [Footprint V] {max now : Nat} {key : K} {value : V} {s' : Store K V}

theorem insert_of_room (ttl : Nat) {freed : Freed} (h : s.makeRoom max now (entrySize key value) key = (s', some freed)) :
    s.insert max now key value ttl = (s'.put key value now ttl (entrySize key value), some freed) := by
  simp only [insert, h]

theorem insert_of_no_room (ttl : Nat) (h : s.makeRoom max now (entrySize key value) key = (s', none)) :
    s.insert max now key value ttl = (s', none) := by
  simp only [insert, h]

/-- a value is stored if there is room for it -/
theorem insert_isSome (s : Store K V) (max now : Nat) (key : K) (value : V) (ttl : Nat) :
    (s.insert max now key value ttl).2.isSome = (s.room? max (entrySize key value) key).isSome := by
  rw [← makeRoom_isSome s max now]
  cases hr : s.makeRoom max now (entrySize key value) key with
  | mk s' freed =>
    cases freed with
    | none => rw [insert_of_no_room ttl hr]
    | some freed => rw [insert_of_room ttl hr]

end

variable [Footprint K] [Footprint V]

namespace Wf

theorem makeRoom_entries (h : Wf s) (max now size : Nat) (key : K) :
    (s.makeRoom max now size key).1.entries =
      s.entries.filter fun e => decide (e.key ≠ key ∧ e.place ∉ s.victims max size key) := by
  have hboth : ∀ places : List (Place K),
      (s.entries.filter fun e => decide (e.key ≠ key)).filter (fun e => decide (e.place ∉ places)) =
        s.entries.filter fun e => decide (e.key ≠ key ∧ e.place ∉ places) := by
    intro places
    rw [List.filter_filter]
    refine List.filter_congr fun e _ => ?_
    rw [Bool.decide_and, Bool.and_comm]
  cases hr : s.room? max size key with
  | none =>
    obtain ⟨c, he⟩ := makeRoom_of_no_room now hr
    simp only [he, victims_of_no_room hr, ← hboth, erase_entries]
    simp
  | some places =>
    obtain ⟨c, he⟩ := makeRoom_of_room? now hr
    simp only [he, victims_of_room? hr, ← hboth, evict_entries (h.erase key) now (room?_sublist hr), erase_entries]

theorem makeRoom_nextSeq (h : Wf s) (max now size : Nat) (key : K) :
    (s.makeRoom max now size key).1.nextSeq =
      if (s.room? max size key).isSome then s.nextSeq + 1 else s.nextSeq := by
  cases hr : s.room? max size key with
  | none =>
    obtain ⟨c, he⟩ := makeRoom_of_no_room now hr
    rw [he]
    exact erase_nextSeq s key
  | some places =>
    obtain ⟨c, he⟩ := makeRoom_of_room? now hr
    have hseq := (evict_spec now places (s.erase key) (h.erase key) (room?_sublist hr)).2.2.1
    rw [he]
    simp only [hseq, erase_nextSeq, Option.isSome_some, if_true]

theorem insert_entries (h : Wf s) (max now : Nat) (key : K) (value : V) (ttl : Nat) :
    (s.insert max now key value ttl).1.entries =
      s.entries.filter (fun e => decide (e.key ≠ key ∧ e.place ∉ s.victims max (entrySize key value) key)) ++
        if (s.room? max (entrySize key value) key).isSome then
          [⟨key, value, now, now + ttl, s.nextSeq + 1, entrySize key value⟩] else [] := by
  have hentries := h.makeRoom_entries max now (entrySize key value) key
  have hseq := h.makeRoom_nextSeq max now (entrySize key value) key
  rw [← makeRoom_isSome s max now] at hseq ⊢
  cases hr : s.makeRoom max now (entrySize key value) key with
  | mk s' freed =>
    rw [hr] at hentries hseq
    cases freed with
    | none =>
      rw [insert_of_no_room ttl hr]
      simpa using hentries
    | some freed =>
      rw [insert_of_room ttl hr]
      simp only [Option.isSome_some, if_true] at hentries hseq ⊢
      simp only [Store.put, hentries, hseq]

theorem insert_nextSeq (h : Wf s) (max now : Nat) (key : K) (value : V) (ttl : Nat) :
    (s.insert max now key value ttl).1.nextSeq =
      if (s.room? max (entrySize key value) key).isSome then s.nextSeq + 1 else s.nextSeq := by
  rw [← h.makeRoom_nextSeq max now]
  cases hr : s.makeRoom max now (entrySize key value) key with
  | mk s' freed =>
    cases freed with
    | none => rw [insert_of_no_room ttl hr]
    | some freed =>
      rw [insert_of_room ttl hr]
      rfl

/-! ## Other keys -/

theorem find?_erase_other (h : Wf s) {key k : K} (hne : k ≠ key) : (s.erase key).find? k = s.find? k := by
  rw [find?_of_filter h.keys (erase_entries s key)]
  cases hf : s.find? k with
  | none => rfl
  | some e =>
    obtain ⟨-, rfl⟩ := find?_some hf
    rw [Option.filter_some, if_pos (by simpa using hne)]

end Wf

end ChainBridge.Cache.Store
