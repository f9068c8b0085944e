/-
Loaders that run at the same time hand on what they would one after the other.

While loaders are still to come, each of the others has left what it came to at its own place (`awaiting`). A loader
that finishes fills its place and no other (`finish_awaiting`), and there is a gap until the last has finished
(`complete?_awaiting`): so by induction along the order in which they finish, whatever order that is, the outcomes in
declared order are there when the last of them has come and not before (`join_awaiting`). What is done with the
outcomes was never a matter of time (`handsOn_aggregate`).

- `timing_irrelevant`: running loaders always comes to an end, which is when the slowest has finished, and hands on all
  values in declared order or the failure declared first; neither other delays nor another order among loaders that
  finish together make a difference to what is handed on.
-/
import Mathlib
import ChainBridge.Proofs.Defi.Slots

namespace ChainBridge.Defi

variable {S T E K : Type}

/-! ## What is handed on -/

/-- what is handed on for outcomes in declared order: all values, in that order, or the first failure and nothing -/
inductive HandsOn (fill : K → S → T → K) (sink : K) :
    List (S × Except E T) → K × Except (Failure S E) Unit → Prop where
  | all (values : List (S × T)) :
      HandsOn fill sink (values.map fun v => (v.1, .ok v.2)) (values.foldl (fun k v => fill k v.1 v.2) sink, .ok ())
  | first (before : List (S × T)) (slot : S) (e : E) (after : List (S × Except E T)) :
      HandsOn fill sink ((before.map fun v => (v.1, .ok v.2)) ++ (slot, .error e) :: after) (sink, .error ⟨slot, e⟩)

/-- before the failure that is reported none has failed -/
theorem collect_error_split {outcomes : List (S × Except E T)} {f : Failure S E} (h : collect outcomes = .error f) :
    ∃ (before : List (S × T)) (after : List (S × Except E T)),
      outcomes = (before.map fun v => (v.1, .ok v.2)) ++ (f.slot, .error f.error) :: after := by
  induction outcomes with
  | nil => cases h
  | cons first rest ih =>
    obtain ⟨slot, outcome⟩ := first
    cases outcome with
    | error e =>
      obtain rfl := Except.error.inj h
      exact ⟨[], rest, rfl⟩
    | ok v =>
      obtain ⟨before, after, hrest⟩ := ih (map_eq_error_iff.1 h)
      refine ⟨(slot, v) :: before, after, ?_⟩
      rw [hrest]
      rfl

theorem handsOn_aggregate (fill : K → S → T → K) (sink : K) (outcomes : List (S × Except E T)) :
    HandsOn fill sink outcomes (aggregate fill sink outcomes) := by
  unfold aggregate
  cases hc : collect outcomes with
  | error f =>
    obtain ⟨before, after, hsplit⟩ := collect_error_split hc
    rw [hsplit]
    exact .first before f.slot f.error after
  | ok values =>
    rw [collect_ok hc]
    exact .all values

/-! ## What has come so far -/

variable {loaders : List (Loader S T E)}

namespace Progress

/-- what has come while the loaders at some places are still to come -/
def awaiting (loaders : List (Loader S T E)) (places : List Nat) : Progress T E :=
  loaders.mapIdx fun i l => if i ∈ places then none else some l.outcome

theorem getElem?_awaiting (places : List Nat) (i : Nat) :
    (awaiting loaders places)[i]? = loaders[i]?.map fun l => if i ∈ places then none else some l.outcome := by
  rw [awaiting, List.getElem?_mapIdx]

/-- at first all of them are to come -/
theorem start_eq_awaiting {places : List Nat} (h : ∀ i < loaders.length, i ∈ places) :
    start loaders.length = awaiting loaders places := by
  apply List.ext_getElem?
  intro i
  rw [getElem?_awaiting, start, List.getElem?_replicate]
  by_cases hi : i < loaders.length
  · rw [if_pos hi, List.getElem?_eq_getElem hi, Option.map_some, if_pos (h i hi)]
  · rw [if_neg hi, List.getElem?_eq_none (Nat.not_lt.1 hi)]
    rfl

/-- a loader that finishes fills its place and no other -/
theorem finish_awaiting {l : Loader S T E} {place : Nat} {rest : List Nat} (hl : loaders[place]? = some l)
    (hnew : place ∉ rest) : (awaiting loaders (place :: rest)).finish place l.outcome = awaiting loaders rest := by
  apply List.ext_getElem?
  intro i
  rw [finish, List.getElem?_set, getElem?_awaiting, getElem?_awaiting]
  by_cases hi : place = i
  · subst hi
    have hplace : place < (awaiting loaders (place :: rest)).length := by
      rw [awaiting, List.length_mapIdx]
      exact (List.getElem?_eq_some_iff.1 hl).1
    rw [if_pos rfl, if_pos hplace, hl, Option.map_some, if_neg hnew]
  · rw [if_neg hi]
    simp only [List.mem_cons, Ne.symm hi, false_or]

theorem complete?_eq_none {p : Progress T E} (h : none ∈ p) : p.complete? = none := by
  induction p with
  | nil => cases h
  | cons first rest ih =>
    cases first with
    | none => rfl
    | some outcome =>
      rw [complete?, ih ((List.mem_cons.1 h).resolve_left (by simp)), Option.map_none]

theorem complete?_map_some (outcomes : List (Except E T)) : complete? (outcomes.map some) = some outcomes := by
  induction outcomes with
  | nil => rfl
  | cons first rest ih => rw [List.map_cons, complete?, ih, Option.map_some]

/-- as long as one is to come there is a gap -/
theorem complete?_awaiting {l : Loader S T E} {place : Nat} {places : List Nat} (hl : loaders[place]? = some l)
    (hmem : place ∈ places) : (awaiting loaders places).complete? = none := by
  apply complete?_eq_none
  apply List.mem_of_getElem? (i := place)
  rw [getElem?_awaiting, hl, Option.map_some, if_pos hmem]

/-- once none is to come there is none -/
theorem complete?_awaiting_nil : (awaiting loaders []).complete? = some (loaders.map Loader.outcome) := by
  have hall : awaiting loaders [] = (loaders.map Loader.outcome).map some := by
    apply List.ext_getElem?
    intro i
    rw [getElem?_awaiting, List.getElem?_map, List.getElem?_map, Option.map_map]
    simp only [List.not_mem_nil, if_false]
    rfl
  rw [hall, complete?_map_some]

end Progress

/-! ## Running to the end -/

/-- an order in which loaders may finish: each at its place and once, and none before one that is faster -/
structure Schedule (loaders : List (Loader S T E)) (coming : List (Loader S T E × Nat)) : Prop where
  each : coming.Perm loaders.zipIdx
  ordered : coming.Pairwise fun a b => a.1.delay ≤ b.1.delay

/-- when the slowest of some loaders finishes -/
def IsSlowest (loaders : List (Loader S T E)) (now : Nat) : Prop :=
  (∀ l ∈ loaders, l.delay ≤ now) ∧ (loaders = [] ∧ now = 0 ∨ ∃ l ∈ loaders, l.delay = now)

theorem IsSlowest.unique {now later : Nat} (h : IsSlowest loaders now) (h' : IsSlowest loaders later) : now = later := by
  obtain ⟨hall, hone⟩ := h
  obtain ⟨hall', hone'⟩ := h'
  rcases hone with ⟨rfl, rfl⟩ | ⟨l, hl, rfl⟩
  · rcases hone' with ⟨-, rfl⟩ | ⟨l, hl, -⟩
    · rfl
    · cases hl
  · rcases hone' with ⟨rfl, -⟩ | ⟨l', hl', rfl⟩
    · cases hl
    · exact Nat.le_antisymm (hall' l hl) (hall l' hl')

theorem join_complete {now : Nat} {p : Progress T E} {coming : List (Loader S T E × Nat)}
    {outcomes : List (Except E T)} (h : p.complete? = some outcomes) : join now p coming = some (now, outcomes) := by
  rw [join.eq_def, h]

theorem join_next {now : Nat} {p : Progress T E} (h : p.complete? = none) (l : Loader S T E) (place : Nat)
    (rest : List (Loader S T E × Nat)) :
    join now p ((l, place) :: rest) = join l.delay (p.finish place l.outcome) rest := by
  rw [join.eq_def, h]

/-- loaders that are still to come finish one after the other, and what all came to is there when the last has -/
theorem join_awaiting {now : Nat} {coming : List (Loader S T E × Nat)}
    (hplaces : ∀ x ∈ coming, loaders[x.2]? = some x.1) (hnodup : (coming.map Prod.snd).Nodup) :
    join now (.awaiting loaders (coming.map Prod.snd)) coming =
      some (coming.foldl (fun _ x => x.1.delay) now, loaders.map Loader.outcome) := by
  induction coming generalizing now with
  | nil => exact join_complete Progress.complete?_awaiting_nil
  | cons x rest ih =>
    obtain ⟨l, place⟩ := x
    have hl : loaders[place]? = some l := hplaces (l, place) List.mem_cons_self
    obtain ⟨hnew, hrest⟩ := List.nodup_cons.1 hnodup
    calc join now (.awaiting loaders (place :: rest.map Prod.snd)) ((l, place) :: rest)
        = join l.delay ((Progress.awaiting loaders (place :: rest.map Prod.snd)).finish place l.outcome) rest :=
          join_next (Progress.complete?_awaiting hl List.mem_cons_self) l place rest
      _ = join l.delay (.awaiting loaders (rest.map Prod.snd)) rest := by rw [Progress.finish_awaiting hl hnew]
      _ = some (rest.foldl (fun _ x => x.1.delay) l.delay, loaders.map Loader.outcome) :=
          ih (fun x hx => hplaces x (List.mem_cons_of_mem _ hx)) hrest

/-- in order the last to come is the slowest -/
theorem foldl_delay_slowest {now : Nat} {coming : List (Loader S T E × Nat)}
    (h : coming.Pairwise fun a b => a.1.delay ≤ b.1.delay) (hnow : ∀ x ∈ coming, now ≤ x.1.delay) :
    (∀ x ∈ coming, x.1.delay ≤ coming.foldl (fun _ x => x.1.delay) now) ∧
    now ≤ coming.foldl (fun _ x => x.1.delay) now ∧
    (coming = [] ∧ coming.foldl (fun _ x => x.1.delay) now = now ∨
      ∃ x ∈ coming, x.1.delay = coming.foldl (fun _ x => x.1.delay) now) := by
  induction coming generalizing now with
  | nil => simp
  | cons x rest ih =>
    obtain ⟨hfirst, hrest⟩ := List.pairwise_cons.1 h
    obtain ⟨hall, hle, hone⟩ := ih hrest hfirst
    rw [List.foldl_cons]
    refine ⟨List.forall_mem_cons.2 ⟨hle, hall⟩, (hnow x List.mem_cons_self).trans hle, .inr ?_⟩
    rcases hone with ⟨rfl, -⟩ | ⟨y, hy, heq⟩
    · exact ⟨x, List.mem_cons_self, rfl⟩
    · exact ⟨y, List.mem_cons_of_mem x hy, heq⟩

/-- in whatever order loaders finish, what they came to is there when the slowest has finished, in declared order -/
theorem Schedule.join_eq {coming : List (Loader S T E × Nat)} (h : Schedule loaders coming) :
    ∃ now, IsSlowest loaders now ∧
      join 0 (.start loaders.length) coming = some (now, loaders.map Loader.outcome) := by
  have hplaces : ∀ x ∈ coming, loaders[x.2]? = some x.1 := by
    intro x hx
    exact List.mem_zipIdx_iff_getElem?.1 (h.each.mem_iff.1 hx)
  have hsnd : (coming.map Prod.snd).Perm (List.range' 0 loaders.length) := by
    rw [← List.zipIdx_map_snd 0 loaders]
    exact h.each.map Prod.snd
  have hnodup : (coming.map Prod.snd).Nodup := hsnd.nodup_iff.2 List.nodup_range'
  have hstart : Progress.start loaders.length = Progress.awaiting loaders (coming.map Prod.snd) := by
    apply Progress.start_eq_awaiting
    intro i hi
    exact hsnd.mem_iff.2 (List.mem_range'_1.2 ⟨Nat.zero_le i, by omega⟩)
  have hloaders : ∀ l, l ∈ loaders ↔ ∃ x ∈ coming, x.1 = l := by
    intro l
    rw [← List.zipIdx_map_fst 0 loaders, ← (h.each.map Prod.fst).mem_iff, List.mem_map]
  obtain ⟨hall, -, hone⟩ := foldl_delay_slowest h.ordered fun x _ => Nat.zero_le x.1.delay
  refine ⟨_, ⟨?_, ?_⟩, by rw [hstart, join_awaiting hplaces hnodup]⟩
  · intro l hl
    obtain ⟨x, hx, rfl⟩ := (hloaders l).1 hl
    exact hall x hx
  · rcases hone with ⟨rfl, hzero⟩ | ⟨x, hx, heq⟩
    · refine .inl ⟨?_, hzero⟩
      rw [← List.length_eq_zero_iff, ← List.length_zipIdx (i := 0)]
      exact List.length_eq_zero_iff.2 h.each.nil_eq.symm
    · exact .inr ⟨x.1, (hloaders x.1).2 ⟨x, hx, rfl⟩, heq⟩

theorem schedule_arrivals (loaders : List (Loader S T E)) : Schedule loaders (arrivals loaders) := by
  refine ⟨List.mergeSort_perm _ _, ?_⟩
  refine (List.pairwise_mergeSort ?_ ?_ loaders.zipIdx).imp ?_
  · intro a b c hab hbc
    simp only [decide_eq_true_eq] at hab hbc ⊢
    exact Nat.le_trans hab hbc
  · intro a b
    simp only [Bool.or_eq_true, decide_eq_true_eq]
    exact Nat.le_total a.1.delay b.1.delay
  · intro a b hab
    exact of_decide_eq_true hab

/-- running loaders comes to what their outcomes come to in declared order, when the slowest has finished -/
theorem gather_eq (fill : K → S → T → K) (sink : K) (loaders : List (Loader S T E)) :
    ∃ now, IsSlowest loaders now ∧
      gather fill sink loaders = some (now, aggregate fill sink (loaders.map fun l => (l.slot, l.outcome))) := by
  obtain ⟨now, hnow, hjoin⟩ := (schedule_arrivals loaders).join_eq
  refine ⟨now, hnow, ?_⟩
  rw [gather, hjoin]
  simp only [Option.map_some, List.zip_map']

/-- **Timing makes no difference.** Running loaders always comes to an end, and that is when the slowest of them has
finished. Handed on is what the outcomes in declared order come to: all values in that order, or the failure declared
first while the sink stays as it was. With other delays the same is handed on, and in whatever order loaders finish
that take equally long, nothing is different at all. -/
theorem timing_irrelevant (fill : K → S → T → K) (sink : K) (loaders : List (Loader S T E)) :
    (∃ now result, gather fill sink loaders = some (now, result) ∧ IsSlowest loaders now ∧
      HandsOn fill sink (loaders.map fun l => (l.slot, l.outcome)) result) ∧
    (∀ delays : Nat → Nat, (gather fill sink (loaders.mapIdx fun i l => { l with delay := delays i })).map Prod.snd =
      (gather fill sink loaders).map Prod.snd) ∧
    (∀ coming, Schedule loaders coming →
      join 0 (.start loaders.length) coming = join 0 (.start loaders.length) (arrivals loaders)) := by
  obtain ⟨now, hnow, hgather⟩ := gather_eq fill sink loaders
  refine ⟨?_, ?_, ?_⟩
  · exact ⟨now, _, hgather, hnow, handsOn_aggregate fill sink _⟩
  · intro delays
    obtain ⟨other, -, hother⟩ := gather_eq fill sink (loaders.mapIdx fun i l => { l with delay := delays i })
    have hsame : (loaders.mapIdx fun i l => { l with delay := delays i }).map (fun l => (l.slot, l.outcome)) =
        loaders.map fun l => (l.slot, l.outcome) := by
      apply List.ext_getElem?
      intro i
      rw [List.getElem?_map, List.getElem?_mapIdx, List.getElem?_map, Option.map_map]
      rfl
    rw [hother, hgather, hsame, Option.map_some, Option.map_some]
  · intro coming hcoming
    obtain ⟨other, hother, hjoin⟩ := hcoming.join_eq
    obtain ⟨now', hnow', harrivals⟩ := (schedule_arrivals loaders).join_eq
    rw [hjoin, harrivals, hother.unique hnow']

/-- two loaders that fail together, the later one first -/
theorem timing_irrelevant_tied :
    let first : Loader String Nat String := ⟨"a", 5, .error "late"⟩
    let second : Loader String Nat String := ⟨"b", 5, .error "early"⟩
    join 0 (.start 2) [(second, 1), (first, 0)] = join 0 (.start 2) (arrivals [first, second]) ∧
      join 0 (.start 2) [(second, 1), (first, 0)] = some (5, [.error "late", .error "early"]) := by
  intro first second
  have htie : Schedule [first, second] [(second, 1), (first, 0)] := ⟨.swap _ _ _, by simp [first, second]⟩
  exact ⟨(timing_irrelevant (fun (k : List (String × Nat)) s v => k ++ [(s, v)]) [] [first, second]).2.2 _ htie, rfl⟩

end ChainBridge.Defi
