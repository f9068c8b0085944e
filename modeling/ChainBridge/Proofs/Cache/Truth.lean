/-
A cache whose jobs always come to the same holds nothing else.

`answer` says what each job comes to, and `Fits` which job belongs to a key. A cache is `Truthful` if every stored value
and every outcome of a fill is the answer of a job that fits the key, and every caller was served such a value or waits
for a fill of its own key. `Act.Honest` are the acts that bring in nothing else: a caller comes with a job that fits its
key, a fill ends with the answer of its job, and nothing is stored directly, crashes or is dropped. A truthful cache is
a lawful one in which nothing but such answers may come of a key (`Truthful.lawful`); that no fill comes to the answer
of another job is what it says besides. Honest acts keep a cache truthful (`Truthful.step`), and whoever comes away from
a truthful cache does so with the answer of a job that fits the key (`Truthful.settled`).
-/
import Mathlib
import ChainBridge.Proofs.Cache.Contents

namespace ChainBridge.Cache

variable {K V E J : Type}

/-- what the callers of a job that comes to a result come away with -/
def Settled.of (result : Except E V) : Settled V E := .ofOutcome (some result)

/-! ## Truthful caches -/

/-- whether an act brings in nothing but answers of jobs that fit their keys -/
def Act.Honest (answer : J → Except E V) (Fits : K → J → Prop) (st : St K V E J) : Act K V E J → Prop
  | .set .. | .crash _ | .discard _ => False
  | .fetch key _ job => Fits key job
  | .finish fill outcome => ∀ f ∈ st.fill? fill, outcome = answer f.job
  | _ => True

/-- whether a value is what a job comes to that fits the key -/
def Known (answer : J → Except E V) (Fits : K → J → Prop) (key : K) (v : V) : Prop :=
  ∃ job, Fits key job ∧ answer job = .ok v

/-- whether an outcome is what a job comes to that fits the key -/
def Answers (answer : J → Except E V) (Fits : K → J → Prop) (key : K) (outcome : Option (Except E V)) : Prop :=
  ∃ job, Fits key job ∧ outcome = some (answer job)

section

variable {answer : J → Except E V} {Fits : K → J → Prop} {key : K}

theorem known_iff {v : V} : Known answer Fits key v ↔ Answers answer Fits key (some (.ok v)) := by
  simp only [Known, Answers, Option.some.injEq, eq_comm]

theorem not_answers_none : ¬Answers answer Fits key none := by
  rintro ⟨job, -, h⟩
  exact absurd h (by simp)

theorem Act.Honest.obeys {st : St K V E J} {act : Act K V E J} (h : act.Honest answer Fits st) :
    act.Obeys Fits (Answers answer Fits) st := by
  cases act with
  | set => exact h.elim
  | crash => exact h.elim
  | discard => exact h.elim
  | fetch key ttl job => exact h
  | finish fill outcome => exact fun f hf hfits => ⟨f.job, hfits, congrArg some (h f hf)⟩
  | _ => trivial

end

/-- everything that is stored, that fills have come to and that callers were told is the answer of a job that fits the
key -/
structure Truthful [DecidableEq K] [Footprint K] [Footprint V] (answer : J → Except E V) (Fits : K → J → Prop)
    (st : St K V E J) : Prop where
  wf : st.store.Wf
  single : Single st
  below : ∀ g ∈ st.callers, g.id < st.nextCaller
  stored : ∀ e ∈ st.store.entries, Known answer Fits e.key e.value
  jobs : ∀ f ∈ st.fills, Fits f.key f.job
  outcomes : ∀ f ∈ st.fills, ∀ outcome, f.stage.outcome? = some outcome → outcome = some (answer f.job)
  kept : ∀ f ∈ st.fills, f.stage ≠ .dropped
  served : ∀ g ∈ st.callers, ∀ v, g.ticket = .served v → Known answer Fits g.key v
  awaiting : ∀ g ∈ st.callers, ∀ fill, g.ticket = .awaiting fill → ∃ f ∈ st.fills, f.id = fill ∧ f.key = g.key

variable [DecidableEq K] [Footprint K] [Footprint V] {answer : J → Except E V} {Fits : K → J → Prop}

theorem new_truthful : Truthful answer Fits (.new : St K V E J) := by
  refine ⟨Store.wf_empty, new_single, ?_, ?_, ?_, ?_, ?_, ?_, ?_⟩ <;> exact fun _ h => absurd h List.not_mem_nil

namespace Truthful

variable {st : St K V E J} {act : Act K V E J}

/-- the counters of a cache have no part in it -/
theorem counted (h : Truthful answer Fits st) (metrics : Metrics.Registry) :
    Truthful answer Fits { st with metrics := metrics } :=
  ⟨h.wf, h.single.quiet rfl rfl, h.below, h.stored, h.jobs, h.outcomes, h.kept, h.served, h.awaiting⟩

theorem lawful (h : Truthful answer Fits st) : Lawful Fits (Answers answer Fits) st where
  wf := h.wf
  single := h.single
  below := h.below
  stored e he := known_iff.1 (h.stored e he)
  jobs := h.jobs
  outcomes f hf outcome ho := ⟨f.job, h.jobs f hf, h.outcomes f hf outcome ho⟩
  dropped f hf hdropped := absurd hdropped (h.kept f hf)
  served g hg v hticket := known_iff.1 (h.served g hg v hticket)
  awaiting := h.awaiting

/-- an honest act turns no fill to another outcome than the answer of its job -/
theorem outcomes_step (c : Setup) (h : Truthful answer Fits st) (ha : act.Honest answer Fits st) :
    ∀ g ∈ (step c st act).fills, ∀ outcome, g.stage.outcome? = some outcome → outcome = some (answer g.job) := by
  intro g hg outcome ho
  rcases mem_fills_step h.single (step_fills c st act) hg with hg | ⟨ttl, rfl, hqueued⟩ | ⟨f, stage, hf, hturn, rfl⟩
  · exact h.outcomes g hg outcome ho
  · rw [hqueued] at ho
    exact absurd ho (by simp [Stage.outcome?])
  · obtain ⟨hmem, -⟩ := fill?_some hf
    have hold := h.outcomes f hmem
    obtain ⟨id, key, ttl, job, before⟩ := f
    cases hturn with
    | begin => exact absurd ho (by simp [Stage.outcome?])
    | finish _ result =>
      have hanswer : result = answer job := ha _ hf
      rw [← Option.some.inj ho, hanswer]
    | tell => exact hold outcome ho
    | crash => exact ha.elim
    | drop => exact ha.elim
    | cut => exact ha.elim

/-- an honest act keeps a cache truthful -/
theorem step (c : Setup) (h : Truthful answer Fits st) (act : Act K V E J) (ha : act.Honest answer Fits st) :
    Truthful answer Fits (step c st act) := by
  have hlawful := h.lawful.step c act ha.obeys
  exact ⟨hlawful.wf, hlawful.single, hlawful.below, fun e he => known_iff.2 (hlawful.stored e he), hlawful.jobs,
    h.outcomes_step c ha, fun f hf hdropped => not_answers_none (hlawful.dropped f hf hdropped),
    fun g hg v hticket => known_iff.2 (hlawful.served g hg v hticket), hlawful.awaiting⟩

/-- whoever comes away does so with the answer of a job that fits the key that it asked for -/
theorem settled (h : Truthful answer Fits st) {caller : Nat} {s : Settled V E} (hs : st.settled? caller = some s) :
    ∃ g ∈ st.callers, g.id = caller ∧ ∃ job, Fits g.key job ∧ s = .of (answer job) := by
  obtain ⟨g, hg, hid, -, ⟨job, hfits, rfl⟩, rfl⟩ := h.lawful.settled hs
  exact ⟨g, hg, hid, job, hfits, rfl⟩

end Truthful

end ChainBridge.Cache
