/-
In a cache whose values all come from fills, no stored key is being filled.

Nothing checks this. A key is marked only for a caller that found no live entry, and the lookup has taken an expired one
out by then; and the marker is gone before the value of the fill is offered. So it holds throughout every run in which
nothing is stored directly (`run_vacant`), and a plan never has to pass over a key. It then takes places from the front
of the index and stops at the first behind which few enough bytes are left (`mem_plan_iff`), and an offer finds room if
and only if it could fit into an empty cache (`Wf.room?_isSome_iff`).
-/
import Mathlib
import ChainBridge.Proofs.Cache.History
import ChainBridge.Proofs.Cache.SingleFlight

namespace ChainBridge.Cache

variable {K V E J : Type} [DecidableEq K]

namespace Store

variable {s : Store K V}

/-- whether no stored key is being filled -/
def Vacant (s : Store K V) : Prop := ∀ e ∈ s.entries, s.filling? e.key = none

/-- fewer entries under the same markers -/
theorem Vacant.of_sublist {s' : Store K V} (h : Vacant s) (hsub : s'.entries.Sublist s.entries)
    (hmarks : s'.marks = s.marks) : Vacant s' := by
  intro e he
  rw [filling?_congr hmarks]
  exact h e (hsub.subset he)

theorem Vacant.erase (h : Vacant s) (key : K) : Vacant (s.erase key) := by
  refine h.of_sublist ?_ (erase_marks s key)
  rw [erase_entries]
  exact List.filter_sublist

/-- letting go of a key marks none -/
theorem filling?_release_none {key : K} (h : s.filling? key = none) (key' : K) (fill : Nat) :
    (s.release key' fill).filling? key = none := by
  cases hm : s.filling? key' with
  | none =>
    have hsame : s.release key' fill = s := by simp only [release, marker?_eq_none_iff.2 hm]
    rw [hsame]
    exact h
  | some fill' =>
    have hnone : ∀ m ∈ s.pending, m.key ≠ key := by
      simpa [filling?, marker?] using h
    unfold release
    split
    · exact h
    · split_ifs
      · simp only [filling?, marker?, Option.map_eq_none_iff, List.find?_eq_none]
        intro m hmem
        simpa using hnone m (List.mem_filter.1 hmem).1
      · exact h

theorem Vacant.release (h : Vacant s) (key : K) (fill : Nat) : Vacant (s.release key fill) := by
  intro e he
  rw [release_entries] at he
  exact filling?_release_none (h e he) key fill

theorem Vacant.insert [Footprint K] [Footprint V] (h : Wf s) (hv : Vacant s) {key : K} (hfree : s.filling? key = none)
    (max now : Nat) (value : V) (ttl : Nat) : Vacant (s.insert max now key value ttl).1 := by
  intro e he
  rw [filling?_congr (insert_marks s max now key value ttl)]
  rw [h.insert_entries, List.mem_append] at he
  rcases he with he | he
  · exact hv e (List.mem_filter.1 he).1
  · split_ifs at he
    · rw [List.mem_singleton.1 he]
      exact hfree
    · exact absurd he List.not_mem_nil

/-! ## Plans that pass over nothing -/

section

variable {needed max : Nat} {l : List (Place K)}

/-- whether a place is that of a stored key that is not being filled -/
def Takes (s : Store K V) (p : Place K) : Prop := s.isPending p.key = false ∧ (s.find? p.key).isSome = true

/-- a step of a plan that has not made enough room yet and may take the place in front -/
theorem plan_cons {p : Place K} {projected : Nat} (hp : s.Takes p) (hfull : ¬projected + needed ≤ max) :
    s.plan needed max (p :: l) projected =
      (p :: (s.plan needed max l (projected - s.sizeAt p)).1, (s.plan needed max l (projected - s.sizeAt p)).2) := by
  obtain ⟨hfree, hfound⟩ := hp
  obtain ⟨e, hf⟩ := Option.isSome_iff_exists.1 hfound
  have hsize : s.sizeAt p = e.size := by simp [sizeAt, hf]
  simp only [plan, if_neg hfull, hfree, Bool.false_eq_true, if_false, hf, hsize]

/-- a plan takes a place if too many bytes are left at and behind it -/
theorem mem_plan_iff (h : ∀ p ∈ l, s.Takes p) (p : Place K) :
    p ∈ (s.plan needed max l (l.map s.sizeAt).sum).1 ↔
      ∃ rest, (p :: rest) <:+ l ∧ max < ((p :: rest).map s.sizeAt).sum + needed := by
  induction l with
  | nil => simp [plan]
  | cons q l ih =>
    by_cases hfit : ((q :: l).map s.sizeAt).sum + needed ≤ max
    · have hstop : s.plan needed max (q :: l) ((q :: l).map s.sizeAt).sum = ([], ((q :: l).map s.sizeAt).sum) := by
        simp only [plan, if_pos hfit]
      rw [hstop]
      refine ⟨fun hp => absurd hp List.not_mem_nil, ?_⟩
      rintro ⟨rest, hsuffix, hmore⟩
      have hle := (hsuffix.sublist.map s.sizeAt).sum_le_sum fun _ _ => Nat.zero_le _
      omega
    · have hrest : ((q :: l).map s.sizeAt).sum - s.sizeAt q = (l.map s.sizeAt).sum := by
        rw [List.map_cons, List.sum_cons]
        exact Nat.add_sub_cancel_left _ _
      rw [plan_cons (h q List.mem_cons_self) hfit, hrest, List.mem_cons,
        ih fun p hp => h p (List.mem_cons_of_mem q hp)]
      constructor
      · rintro (rfl | ⟨rest, hsuffix, hmore⟩)
        · exact ⟨l, List.suffix_refl _, by omega⟩
        · exact ⟨rest, hsuffix.trans (List.suffix_cons q l), hmore⟩
      · rintro ⟨rest, hsuffix, hmore⟩
        rcases List.suffix_cons_iff.1 hsuffix with heq | hsuffix
        · exact .inl (List.cons.inj heq).1
        · exact .inr ⟨rest, hsuffix, hmore⟩

/-- a plan that passes over nothing makes room for whatever fits into an empty cache -/
theorem plan_fits (h : ∀ p ∈ l, s.Takes p) (hle : needed ≤ max) :
    (s.plan needed max l (l.map s.sizeAt).sum).2 + needed ≤ max := by
  induction l with
  | nil => simpa [plan] using hle
  | cons q l ih =>
    by_cases hfit : ((q :: l).map s.sizeAt).sum + needed ≤ max
    · simp only [plan, if_pos hfit]
      exact hfit
    · have hrest : ((q :: l).map s.sizeAt).sum - s.sizeAt q = (l.map s.sizeAt).sum := by
        rw [List.map_cons, List.sum_cons]
        exact Nat.add_sub_cancel_left _ _
      rw [plan_cons (h q List.mem_cons_self) hfit, hrest]
      exact ih fun p hp => h p (List.mem_cons_of_mem q hp)

end

variable [Footprint K] [Footprint V]

theorem Wf.takes (h : Wf s) (hv : s.Vacant) : ∀ p ∈ s.index, s.Takes p := by
  intro p hp
  obtain ⟨e, hf, rfl⟩ := h.find?_place hp
  have hfree : s.marker? e.place.key = none := marker?_eq_none_iff.2 (hv e (find?_some hf).1)
  exact ⟨by rw [isPending, hfree]; rfl, by rw [hf]; rfl⟩

/-- the victims are the places of other keys at and behind which too many bytes are left -/
theorem Wf.room?_of_vacant (h : Wf s) (hv : s.Vacant) {max size : Nat} (key : K) (hle : size ≤ max) :
    ∃ places, s.room? max size key = some places ∧ ∀ p, p ∈ places ↔ ∃ rest, (p :: rest) <:+ (s.erase key).index ∧
      max < ((p :: rest).map (s.erase key).sizeAt).sum + size := by
  have htakes := (h.erase key).takes (hv.erase key)
  have hsum : (s.erase key).occupied = ((s.erase key).index.map (s.erase key).sizeAt).sum :=
    (h.erase key).sum_sizeAt.symm
  refine ⟨_, ?_, fun p => mem_plan_iff htakes p⟩
  rw [room?, if_pos hle, planEviction, hsum]
  simp only [plan_fits htakes hle, if_true]

/-- there is room for whatever fits into an empty cache -/
theorem Wf.room?_isSome_iff (h : Wf s) (hv : s.Vacant) (max size : Nat) (key : K) :
    (s.room? max size key).isSome = true ↔ size ≤ max := by
  by_cases hle : size ≤ max
  · obtain ⟨places, hroom, -⟩ := h.room?_of_vacant hv key hle
    simp [hroom, hle]
  · simp [room?, hle]

theorem Wf.mem_victims_iff (h : Wf s) (hv : s.Vacant) (max size : Nat) (key : K) (p : Place K) :
    p ∈ s.victims max size key ↔ size ≤ max ∧ ∃ rest, (p :: rest) <:+ (s.erase key).index ∧
      max < ((p :: rest).map (s.erase key).sizeAt).sum + size := by
  by_cases hle : size ≤ max
  · obtain ⟨places, hroom, hplaces⟩ := h.room?_of_vacant hv key hle
    rw [victims_of_room? hroom, hplaces]
    exact ⟨fun hp => ⟨hle, hp⟩, fun hp => hp.2⟩
  · rw [victims_of_no_room (by rw [room?, if_neg hle])]
    exact ⟨fun hp => absurd hp List.not_mem_nil, fun hp => absurd hp.1 hle⟩

end Store

/-! ## Runs in which nothing is stored directly -/

/-- an act that neither stores nor marks leaves the stored keys unmarked -/
theorem vacant_of_shrunk {st st' : St K V E J} {act : Act K V E J} (hv : st.store.Vacant)
    (hact : ∀ key ttl job, act ≠ .fetch key ttl job) (hsub : st'.store.entries.Sublist st.store.entries)
    (hfills : FillStep st st' act) : st'.store.Vacant := by
  cases hfills with
  | quiet _ hmarks => exact hv.of_sublist hsub hmarks
  | started key ttl job he _ _ _ => exact absurd he (hact key ttl job)
  | moved _ _ _ _ _ _ hmarks => exact hv.of_sublist hsub hmarks
  | ended f _ _ _ _ _ hmarks =>
    refine (hv.release f.key f.id).of_sublist ?_ hmarks
    rw [Store.release_entries]
    exact hsub

variable [Footprint K] [Footprint V]

/-- a caller that marks a key has found no live entry there, and leaves none behind -/
theorem fetch_vacant (c : Setup) {st : St K V E J} (hs : st.store.Wf) (hv : st.store.Vacant) (key : K)
    (ttl : Option Nat) (job : J) : (st.fetch c key ttl job).1.store.Vacant := by
  have hentries := (fetch_entries c st key ttl job).1
  have hw : (st.fetch c key ttl job).1.store.Wf :=
    step_lasting (wf_lasting c.policy.maxSize) st (.fetch key ttl job) hs
  have hsub : (st.fetch c key ttl job).1.store.entries.Sublist st.store.entries := by
    rw [hentries, hs.lookup_entries]
    exact List.filter_sublist
  obtain ⟨ticket, hadmits, -⟩ := fetch_admits c st key ttl job
  generalize (st.fetch c key ttl job).1.fills = fills at hadmits
  generalize (st.fetch c key ttl job).1.store = s at hentries hw hsub hadmits ⊢
  generalize hmarks : s.marks = marks at hadmits
  cases hadmits with
  | hit _ _ => exact hv.of_sublist hsub hmarks
  | join _ _ _ => exact hv.of_sublist hsub hmarks
  | lead hno _ =>
    intro e he
    have hpending : s.pending = st.store.pending ++ [⟨key, st.store.nextFill + 1, st.now⟩] := (Prod.mk.inj hmarks).1
    have hne : key ≠ e.key := ((hs.lacks_of_lookup hw hentries hno).1 e he).symm
    have hfree : st.store.pending.find? (fun m => decide (m.key = e.key)) = none :=
      Option.map_eq_none_iff.1 (hv e (hsub.subset he))
    simp [Store.filling?, Store.marker?, hpending, List.find?_append, hfree, hne]

/-- a value that a fill comes to is stored when its key has been let go -/
theorem finish_vacant (c : Setup) {st : St K V E J} (hs : st.store.Wf) (hsingle : Single st) (hv : st.store.Vacant)
    {id : Nat} {f : Fill K V E J} (hf : st.fill? id = some f) (hrun : f.stage = .running) (v : V) :
    (st.finish c id (.ok v)).store.Vacant := by
  obtain ⟨hmem, rfl⟩ := fill?_some hf
  have hown : st.store.filling? f.key = some f.id := hsingle.filling?_of_holds hmem (by rw [hrun]; rfl)
  obtain ⟨id, key, ttl, job, stage⟩ := f
  subst hrun
  rw [finish_running c hf]
  simp only [St.move, set_store]
  exact Store.Vacant.insert ((wf_lasting 0).release st.store key id hs) (hv.release key id)
    (Store.filling?_release hown) _ _ v _

theorem step_vacant (c : Setup) {st : St K V E J} (hs : st.store.Wf) (hsingle : Single st) (hv : st.store.Vacant)
    {act : Act K V E J} (hact : ∀ key value ttl, act ≠ .set key value ttl) : (step c st act).store.Vacant := by
  cases hadds : act.adds c st with
  | cons e rest =>
    -- what is added is the value of a fill
    obtain ⟨key, value, ttl, hw, -⟩ := mem_adds_iff.1 (hadds ▸ List.mem_cons_self : e ∈ act.adds c st)
    cases hw with
    | set _ _ ttl _ => exact absurd rfl (hact key value ttl)
    | fill f _ hf hrun _ => exact finish_vacant c hs hsingle hv hf hrun value
  | nil =>
    have hsub : (step c st act).store.entries.Sublist st.store.entries := by
      rw [(step_edits c hs act).entries, hadds, List.append_nil]
      exact List.filter_sublist
    by_cases hfetch : ∃ key ttl job, act = .fetch key ttl job
    · obtain ⟨key, ttl, job, rfl⟩ := hfetch
      exact fetch_vacant c hs hv key ttl job
    · exact vacant_of_shrunk hv (fun key ttl job he => hfetch ⟨key, ttl, job, he⟩) hsub (step_fills c st act)

theorem run_vacant (c : Setup) (acts : List (Act K V E J)) (h : ∀ key value ttl, Act.set key value ttl ∉ acts) :
    (run c (.new : St K V E J) acts).store.Vacant := by
  induction acts using List.reverseRecOn with
  | nil => exact fun e he => absurd he List.not_mem_nil
  | append_singleton acts act ih =>
    rw [run_snoc]
    refine step_vacant c (run_wf c acts) (run_single c acts) (ih fun key value ttl hm => ?_) fun key value ttl he => ?_
    · exact h key value ttl (List.mem_append_left _ hm)
    · exact h key value ttl (by simp [he])

end ChainBridge.Cache
