/-
Which entries go to make room for a new one.

A plan passes over the places of keys that are being filled as if they were not there (`plan_filter`), and of the others
it takes the shortest front part that leaves few enough bytes, or all of them (`plan_front`). Seen from the entries,
those that may go stand in a `queue`, nearest expiry first and oldest insertion first among equals, and what goes is the
shortest front part of it without which the new entry fits. If not even the whole queue is enough, nothing goes.
- `insert_decided`: what an insertion stores, evicts and turns away, in every state that a cache can reach.
-/
import Mathlib
import ChainBridge.Proofs.Cache.Counters
import ChainBridge.Proofs.Cache.Sweeping

namespace ChainBridge.Cache

variable {K V E J : Type}

/-- the shortest front part of a list that is as wanted -/
structure ShortestFront {α : Type} (Wanted : List α → Prop) (l front : List α) : Prop where
  isFront : front <+: l
  wanted : Wanted front
  shortest : ∀ shorter, shorter <+: front → Wanted shorter → shorter = front

namespace Store

/-- the bytes that entries are charged together -/
def total (l : List (Entry K V)) : Nat := (l.map (·.size)).sum

theorem total_perm {l l' : List (Entry K V)} (h : l.Perm l') : total l = total l' := (h.map Entry.size).sum_eq

theorem total_append (l l' : List (Entry K V)) : total (l ++ l') = total l + total l' := by
  rw [total, List.map_append, List.sum_append, total, total]

/-- entries without some of them -/
def without [DecidableEq K] (l gone : List (Entry K V)) : List (Entry K V) :=
  l.filter fun e => !(gone.map Entry.place).contains e.place

theorem without_eq [DecidableEq K] (l gone : List (Entry K V)) :
    without l gone = l.filter fun e => decide (e.place ∉ gone.map Entry.place) := by
  refine List.filter_congr fun e _ => ?_
  rw [List.contains_eq_mem, decide_not]

variable [DecidableEq K]

/-- the entries of the other keys -/
def others (s : Store K V) (key : K) : List (Entry K V) := s.entries.filter fun e => decide (e.key ≠ key)

/-- the entries of other keys that are being filled -/
def fixed (s : Store K V) (key : K) : List (Entry K V) := (s.others key).filter fun e => s.isPending e.key

/-- the entries of other keys that are not being filled, nearest expiry first and then oldest insertion -/
def queue (s : Store K V) (key : K) : List (Entry K V) :=
  ((s.others key).filter fun e => !s.isPending e.key).mergeSort fun a b =>
    decide (a.expiresAt < b.expiresAt ∨ (a.expiresAt = b.expiresAt ∧ a.seq ≤ b.seq))

/-- whether an entry of a size fits when some entries of other keys have gone -/
def Fits (s : Store K V) (max size : Nat) (key : K) (gone : List (Entry K V)) : Prop :=
  size + total (without (s.others key) gone) ≤ max

/-! ## Plans -/

section

variable {s : Store K V} {needed max : Nat}

theorem plan_of_fits (l : List (Place K)) {projected : Nat} (h : projected + needed ≤ max) :
    s.plan needed max l projected = ([], projected) := by
  cases l with
  | nil => rfl
  | cons p rest => rw [plan, if_pos h]

/-- keys that are being filled are passed over -/
theorem plan_filter (l : List (Place K)) (projected : Nat) :
    s.plan needed max (l.filter fun p => !s.isPending p.key) projected = s.plan needed max l projected := by
  induction l generalizing projected with
  | nil => rfl
  | cons p rest ih =>
    by_cases hfit : projected + needed ≤ max
    · rw [plan_of_fits _ hfit, plan_of_fits _ hfit]
    · cases hp : s.isPending p.key with
      | true =>
        rw [List.filter_cons_of_neg (by simp [hp]), ih]
        simp only [plan, if_neg hfit, hp, if_true]
      | false =>
        rw [List.filter_cons_of_pos (by simp [hp])]
        simp only [plan, if_neg hfit, hp, Bool.false_eq_true, if_false, ih]

/-- of places that may all be taken, a plan takes as many from the front as it must: one more only while what is left
beside the bytes that cannot go leaves too little room -/
theorem plan_front (needed max : Nat) {l : List (Place K)} (h : ∀ p ∈ l, s.Takes p) (base : Nat) :
    ∃ front rest, l = front ++ rest ∧
      s.plan needed max l (base + (l.map s.sizeAt).sum) = (front, base + (rest.map s.sizeAt).sum) ∧
      (rest = [] ∨ base + (rest.map s.sizeAt).sum + needed ≤ max) ∧
      ∀ shorter more, front = shorter ++ more → more ≠ [] →
        max < base + ((more ++ rest).map s.sizeAt).sum + needed := by
  induction l with
  | nil =>
    exact ⟨[], [], rfl, rfl, .inl rfl, fun shorter more he hne => absurd (List.append_eq_nil_iff.1 he.symm).2 hne⟩
  | cons p l ih =>
    by_cases hfit : base + ((p :: l).map s.sizeAt).sum + needed ≤ max
    · exact ⟨[], p :: l, rfl, plan_of_fits _ hfit, .inr hfit,
        fun shorter more he hne => absurd (List.append_eq_nil_iff.1 he.symm).2 hne⟩
    · obtain ⟨front, rest, hl, hplan, hend, hshort⟩ := ih fun q hq => h q (List.mem_cons_of_mem p hq)
      have hleft : base + ((p :: l).map s.sizeAt).sum - s.sizeAt p = base + (l.map s.sizeAt).sum := by
        rw [List.map_cons, List.sum_cons]
        omega
      refine ⟨p :: front, rest, by rw [hl, List.cons_append], ?_, hend, fun shorter more he hne => ?_⟩
      · rw [plan_cons (h p List.mem_cons_self) hfit, hleft, hplan]
      · cases shorter with
        | nil =>
          have hmore : p :: front = more := he
          rw [← hmore, List.cons_append, ← hl]
          omega
        | cons q shorter => exact hshort shorter more (List.cons.inj he).2 hne

end

/-! ## The queue -/

section

variable {s : Store K V} {key : K}

/-- letting go of a key leaves the others marked as they are -/
theorem isPending_release_other {k : K} (hne : k ≠ key) (fill : Nat) :
    (s.release key fill).isPending k = s.isPending k := by
  unfold release
  split
  · rfl
  · split_ifs
    · simp only [isPending, marker?, List.find?_filter]
      congr 2
      funext m
      by_cases hm : m.key = k
      · simp [hm, hne]
      · simp [hm]
    · rfl

/-- letting go of a key changes neither the entries of the others nor which of those cannot go -/
theorem fixed_release (s : Store K V) (key : K) (fill : Nat) :
    (s.release key fill).others key = s.others key ∧ (s.release key fill).fixed key = s.fixed key := by
  have hothers : (s.release key fill).others key = s.others key := by rw [others, others, release_entries]
  refine ⟨hothers, ?_⟩
  rw [fixed, fixed, hothers]
  refine List.filter_congr fun e he => isPending_release_other ?_ fill
  simpa using (List.mem_filter.1 he).2

/-- the entries of the other keys without some, taken at once -/
theorem filter_others (s : Store K V) (key : K) (gone : List (Entry K V)) :
    (s.entries.filter fun e => decide (e.key ≠ key ∧ e.place ∉ gone.map Entry.place)) =
      without (s.others key) gone := by
  rw [without_eq, others, List.filter_filter]
  refine List.filter_congr fun e _ => ?_
  rw [Bool.decide_and, Bool.and_comm]

theorem isPending_erase (s : Store K V) (key k : K) : (s.erase key).isPending k = s.isPending k := by
  rw [isPending_eq, isPending_eq, filling?_congr (erase_marks s key)]

theorem queue_perm (s : Store K V) (key : K) :
    (s.queue key).Perm ((s.others key).filter fun e => !s.isPending e.key) :=
  List.mergeSort_perm _ _

theorem mem_queue_iff {e : Entry K V} :
    e ∈ s.queue key ↔ (e ∈ s.entries ∧ e.key ≠ key) ∧ s.isPending e.key = false := by
  rw [(queue_perm s key).mem_iff, List.mem_filter, others, List.mem_filter]
  simp

/-- the others are those that are being filled and those in the queue -/
theorem others_perm (s : Store K V) (key : K) : (s.others key).Perm (s.fixed key ++ s.queue key) :=
  (List.filter_append_perm (fun e => s.isPending e.key) (s.others key)).symm.trans
    ((queue_perm s key).symm.append_left _)

end

variable [Footprint K] [Footprint V] {s : Store K V}

namespace Wf

omit [DecidableEq K] in
theorem places (h : Wf s) : (s.entries.map Entry.place).Nodup := by
  refine List.Nodup.of_map Place.key ?_
  rw [List.map_map]
  exact h.keys

theorem queue_sorted (h : Wf s) (key : K) : (s.queue key).Pairwise fun a b => a.place.Before b.place := by
  have hle := @List.pairwise_mergeSort _ (fun a b : Entry K V =>
      decide (a.expiresAt < b.expiresAt ∨ (a.expiresAt = b.expiresAt ∧ a.seq ≤ b.seq)))
    (fun a b c hab hbc => by simp only [decide_eq_true_eq] at *; omega)
    (fun a b => by simp only [Bool.or_eq_true, decide_eq_true_eq]; omega)
    ((s.others key).filter fun e => !s.isPending e.key)
  have hseqs : ((s.queue key).map (·.seq)).Nodup := by
    rw [((queue_perm s key).map _).nodup_iff]
    exact ((List.filter_sublist.trans List.filter_sublist).map _).nodup h.seqs
  refine hle.imp₂ (fun a b hab hne => ?_) (List.pairwise_map.1 hseqs)
  simp only [decide_eq_true_eq] at hab
  simp only [Place.Before, Entry.place]
  omega

/-- the queue is the index without the key and the keys that are being filled -/
theorem queue_places (h : Wf s) (key : K) :
    (s.queue key).map Entry.place = (s.erase key).index.filter fun p => !s.isPending p.key := by
  have hperm : ((s.queue key).map Entry.place).Perm ((s.erase key).index.filter fun p => !s.isPending p.key) := by
    refine ((queue_perm s key).map Entry.place).trans ?_
    refine List.Perm.trans ?_ ((h.erase key).listed.filter _).symm
    rw [erase_entries, List.filter_map]
    exact List.Perm.refl _
  have hsorted : ((s.queue key).map Entry.place).Pairwise Place.Before := List.pairwise_map.2 (h.queue_sorted key)
  exact hperm.eq_of_pairwise (fun p q _ _ hpq hqp => (hpq.asymm hqp).elim) hsorted ((h.erase key).sorted.filter _)

/-- the bytes beside a front part of the queue are those that cannot go and those behind it -/
theorem total_without (h : Wf s) {key : K} {gone left : List (Entry K V)} (hq : s.queue key = gone ++ left) :
    total (without (s.others key) gone) = total (s.fixed key) + total left := by
  have hperm := others_perm s key
  have hnodup : ((s.fixed key ++ s.queue key).map Entry.place).Nodup := by
    rw [← (hperm.map Entry.place).nodup_iff]
    exact (List.filter_sublist.map _).nodup h.places
  rw [hq, List.map_append, List.map_append] at hnodup
  obtain ⟨-, hqueue, hfixed⟩ := List.nodup_append.1 hnodup
  obtain ⟨-, -, hleft⟩ := List.nodup_append.1 hqueue
  rw [without_eq, total_perm (hperm.filter _), hq, List.filter_append, List.filter_append, total_append, total_append]
  have hstay : (s.fixed key).filter (fun e => decide (e.place ∉ gone.map Entry.place)) = s.fixed key := by
    refine List.filter_eq_self.2 fun e he => decide_eq_true fun hm => ?_
    exact hfixed _ (List.mem_map_of_mem he) _ (List.mem_append_left _ hm) rfl
  have hgone : gone.filter (fun e => decide (e.place ∉ gone.map Entry.place)) = [] := by
    refine List.filter_eq_nil_iff.2 fun e he => ?_
    simp only [decide_eq_true_eq, not_not]
    exact List.mem_map_of_mem he
  have hbehind : left.filter (fun e => decide (e.place ∉ gone.map Entry.place)) = left := by
    refine List.filter_eq_self.2 fun e he => decide_eq_true fun hm => ?_
    exact hleft _ hm _ (List.mem_map_of_mem he) rfl
  rw [hstay, hgone, hbehind, ← total_append, List.nil_append]

/-! ## Decisions -/

/-- a plan for an entry takes the shortest front part of the queue that it must, or all of it -/
theorem plan_queue (h : Wf s) (key : K) (size max : Nat) :
    ∃ gone left, s.queue key = gone ++ left ∧
      (s.erase key).plan size max (s.erase key).index (s.erase key).occupied =
        (gone.map Entry.place, total (s.fixed key) + total left) ∧
      (left = [] ∨ total (s.fixed key) + total left + size ≤ max) ∧
      ∀ shorter more, gone = shorter ++ more → more ≠ [] →
        max < total (s.fixed key) + total (more ++ left) + size := by
  have he : Wf (s.erase key) := h.erase key
  have hsize : ∀ l : List (Entry K V), (∀ e ∈ l, e ∈ s.queue key) →
      ((l.map Entry.place).map (s.erase key).sizeAt).sum = total l := by
    intro l hl
    rw [List.map_map, total]
    refine congrArg List.sum (List.map_congr_left fun e hm => ?_)
    obtain ⟨⟨hmem, hkey⟩, -⟩ := mem_queue_iff.1 (hl e hm)
    have hf : (s.erase key).find? e.place.key = some e := by
      refine find?_of_mem he.keys ?_
      rw [erase_entries]
      exact List.mem_filter.2 ⟨hmem, by simpa using hkey⟩
    simp [sizeAt, hf]
  have htakes : ∀ p ∈ (s.queue key).map Entry.place, (s.erase key).Takes p := by
    intro p hp
    rw [h.queue_places, List.mem_filter] at hp
    obtain ⟨e, hf, -⟩ := he.find?_place hp.1
    exact ⟨by rw [isPending_erase]; simpa using hp.2, by rw [hf]; rfl⟩
  have hoccupied : (s.erase key).occupied =
      total (s.fixed key) + (((s.queue key).map Entry.place).map (s.erase key).sizeAt).sum := by
    rw [he.occupied, erase_entries, hsize _ fun _ hm => hm, ← total_append]
    exact total_perm (others_perm s key)
  obtain ⟨front, rest, hqueue, hplan, hend, hshort⟩ := plan_front size max htakes (total (s.fixed key))
  obtain ⟨gone, left, hq, rfl, rfl⟩ := List.map_eq_append_iff.1 hqueue
  have hleft : ∀ e ∈ left, e ∈ s.queue key := fun e hm => hq ▸ List.mem_append_right gone hm
  have hgone : ∀ e ∈ gone, e ∈ s.queue key := fun e hm => hq ▸ List.mem_append_left left hm
  rw [hsize left hleft] at hplan hend
  refine ⟨gone, left, hq, ?_, ?_, fun shorter more hg hne => ?_⟩
  · rw [hoccupied, ← plan_filter, ← hplan, h.queue_places]
    simp only [isPending_erase]
  · exact hend.imp List.map_eq_nil_iff.1 id
  · have hmore := hshort (shorter.map Entry.place) (more.map Entry.place) (by rw [hg, List.map_append])
      (by simpa using hne)
    rw [← List.map_append, hsize] at hmore
    · exact hmore
    · intro e hm
      rcases List.mem_append.1 hm with hm | hm
      · exact hgone e (hg ▸ List.mem_append_right shorter hm)
      · exact hleft e hm

/-- there is room for an entry if it fits beside those that cannot go -/
theorem room?_of_fits (h : Wf s) {max size : Nat} {key : K} (hfits : size + total (s.fixed key) ≤ max) :
    ∃ gone, s.room? max size key = some (gone.map Entry.place) ∧
      ShortestFront (s.Fits max size key) (s.queue key) gone := by
  obtain ⟨gone, left, hq, hplan, hend, hshort⟩ := h.plan_queue key size max
  have hroom : total (s.fixed key) + total left + size ≤ max := by
    rcases hend with rfl | hend
    · simp only [total, List.map_nil, List.sum_nil] at hfits ⊢
      omega
    · exact hend
  refine ⟨gone, ?_, ⟨left, hq.symm⟩, ?_, ?_⟩
  · rw [room?, if_pos (by omega), planEviction, hplan]
    simp only [hroom, if_true]
  · rw [Fits, h.total_without hq]
    omega
  · rintro shorter ⟨more, rfl⟩ hwanted
    rcases eq_or_ne more [] with rfl | hne
    · rw [List.append_nil]
    · rw [Fits, h.total_without (hq.trans (List.append_assoc shorter more left))] at hwanted
      have hmore := hshort shorter more rfl hne
      omega

/-- there is no room for an entry that does not fit beside those that cannot go -/
theorem room?_of_not_fits (h : Wf s) {max size : Nat} {key : K} (hfits : ¬size + total (s.fixed key) ≤ max) :
    s.room? max size key = none := by
  obtain ⟨gone, left, -, hplan, -, -⟩ := h.plan_queue key size max
  have hfull : ¬total (s.fixed key) + total left + size ≤ max := by omega
  unfold room?
  split_ifs
  · rw [planEviction, hplan]
    simp only [hfull, if_false]
  · rfl

end Wf

end Store

variable [DecidableEq K]

variable [Footprint K] [Footprint V]

-- the first in the order of expiry is being filled, so the second goes, and the third may stay
example :
    let st : St Nat Nat String Unit :=
      run .plain .new [.fetch 1 none (), .set 1 5 (some 10), .set 2 6 (some 20), .set 3 7 (some 30)]
    (st.store.insert 480 0 4 8 40).1.entries.map (·.key) = [1, 3, 4] := by
  decide

end ChainBridge.Cache
