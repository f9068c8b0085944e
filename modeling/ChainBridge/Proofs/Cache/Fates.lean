/-
What becomes of one fill in a run.

`step_fate` looks at a step from one fill: the step leaves it as it is, starts it, or turns it to its next stage. A fill
comes to an outcome once, or to nothing if it crashes (`CameTo`), or its task is dropped in the queue (`Dropped`), and
its stage says ever after which of these it was: `cameTo_iff` and `dropped_iff` read the past of a fill off its stage.
-/
import Mathlib
import ChainBridge.Proofs.Cache.Runs
import ChainBridge.Proofs.Cache.Fills

namespace ChainBridge.Cache

variable {K V E J : Type}

/-! ## A step as one fill sees it -/

/-- all that an act can do to the fill of a number -/
inductive Fate (st st' : St K V E J) (act : Act K V E J) (fill : Nat) : Prop where
  | same : st'.fill? fill = st.fill? fill → Fate st st' act fill
  | started (f : Fill K V E J) : st.fill? fill = none → st'.fill? fill = some f → f.stage = .queued →
      Fate st st' act fill
  | turned (f : Fill K V E J) (stage : Stage V E) : st.fill? fill = some f → Turns act fill f.stage stage →
      st'.fill? fill = some { f with stage := stage } → Fate st st' act fill

section

variable {st st' : St K V E J} {fill : Nat}

theorem fill?_congr (h : st'.fills = st.fills) (fill : Nat) : st'.fill? fill = st.fill? fill := by
  simp only [St.fill?, h]

theorem fill?_move (st : St K V E J) (id fill : Nat) (stage : Stage V E) :
    (st.move id stage).fill? fill =
      (st.fill? fill).map fun f => if f.id == id then { f with stage := stage } else f := by
  simp only [St.fill?, St.move, List.find?_map]
  congr 1
  refine congrArg (fun p => st.fills.find? p) (funext fun f => ?_)
  simp only [Function.comp]
  split <;> rfl

theorem fill?_move_self {f : Fill K V E J} (hf : st.fill? fill = some f) (stage : Stage V E) :
    (st.move fill stage).fill? fill = some { f with stage := stage } := by
  obtain ⟨-, hid⟩ := fill?_some hf
  simp only [fill?_move, hf, Option.map_some, hid, beq_self_eq_true, if_true]

theorem fill?_move_other (st : St K V E J) {id : Nat} (hne : fill ≠ id) (stage : Stage V E) :
    (st.move id stage).fill? fill = st.fill? fill := by
  rw [fill?_move]
  cases hf : st.fill? fill with
  | none => rfl
  | some f =>
    obtain ⟨-, hid⟩ := fill?_some hf
    have hno : ¬(f.id == id) = true := by
      simp only [beq_iff_eq]
      exact fun he => hne (hid.symm.trans he)
    simp only [Option.map_some, if_neg hno]

theorem fill?_started {f : Fill K V E J} (hfills : st'.fills = st.fills ++ [f]) (hq : f.stage = .queued)
    {act : Act K V E J} (fill : Nat) : Fate st st' act fill := by
  have hfill : st'.fill? fill = (st.fill? fill).or (if f.id == fill then some f else none) := by
    simp only [St.fill?, hfills, List.find?_append, List.find?_singleton]
  cases hf : st.fill? fill with
  | some g =>
    rw [hf, Option.some_or, ← hf] at hfill
    exact .same hfill
  | none =>
    rw [hf, Option.none_or] at hfill
    split at hfill
    · exact .started f hf hfill hq
    · exact .same (hfill.trans hf.symm)

/-- a fill that is turned, or another one that is not -/
theorem fate_move {f : Fill K V E J} {stage : Stage V E} {act : Act K V E J} (hf : st.fill? f.id = some f)
    (hturn : Turns act f.id f.stage stage) (hfills : st'.fills = (st.move f.id stage).fills) (fill : Nat) :
    Fate st st' act fill := by
  have hmove := fill?_congr hfills fill
  by_cases hid : fill = f.id
  · subst hid
    exact .turned f stage hf hturn (hmove.trans (fill?_move_self hf stage))
  · exact .same (hmove.trans (fill?_move_other st hid stage))

variable [DecidableEq K] [Footprint K] [Footprint V]

theorem step_fate (c : Setup) (st : St K V E J) (act : Act K V E J) (fill : Nat) :
    Fate st (step c st act) act fill := by
  cases step_fills c st act with
  | quiet hfills _ => exact .same (fill?_congr hfills fill)
  | started key ttl job _ _ hfills _ => exact fill?_started hfills rfl fill
  | moved f stage hf hturn _ hfills _ => exact fate_move hf hturn hfills fill
  | ended f outcome hf hrun hturn hfills _ => exact fate_move hf (by rw [hrun]; exact hturn) hfills fill

theorem finish_running (c : Setup) {id i : Nat} {key : K} {ttl : Option Nat} {job : J}
    (hf : st.fill? id = some ⟨i, key, ttl, job, .running⟩) (v : V) :
    st.finish c id (.ok v) =
      ({ st with store := st.store.release key id }.set c key v ttl).1.move id (.ended (some (.ok v))) := by
  simp only [St.finish, hf]

/-- an act that can turn a fill does -/
theorem Turns.taken (c : Setup) {act : Act K V E J} {f : Fill K V E J} {stage : Stage V E} (hf : st.fill? fill = some f)
    (h : Turns act fill f.stage stage) : (step c st act).fill? fill = some { f with stage := stage } := by
  obtain ⟨i, key, ttl, job, before⟩ := f
  cases h with
  | begin =>
    simp only [step, St.begin, hf]
    exact fill?_move_self hf _
  | tell =>
    simp only [step, St.tell, hf]
    exact fill?_move_self hf _
  | drop =>
    simp only [step, St.discard, hf]
    exact fill?_move_self hf _
  | cut =>
    simp only [step, St.discard, St.crash, hf]
    exact fill?_move_self hf _
  | crash =>
    simp only [step, St.crash, hf]
    exact fill?_move_self hf _
  | finish _ outcome =>
    cases outcome with
    | error e =>
      simp only [step, St.finish, hf]
      exact fill?_move_self hf _
    | ok v =>
      have hset := fill?_congr (set_fills c { st with store := st.store.release key fill } key v ttl) fill
      simp only [step, finish_running c hf]
      exact fill?_move_self (hset.trans hf) _

/-- what holds of a fill, but not in the queue, and stays so once it does, came to hold when an act turned the fill -/
theorem became_iff (c : Setup) (acts : List (Act K V E J)) (fill : Nat) {φ : Fill K V E J → Prop}
    (hqueued : ∀ f, f.stage = .queued → ¬φ f)
    (hkeeps : ∀ (act : Act K V E J) (f : Fill K V E J) (stage : Stage V E), Turns act fill f.stage stage → φ f →
      φ { f with stage := stage }) :
    (∃ f, (run c .new acts).fill? fill = some f ∧ φ f) ↔
      Took c acts fun st act => ∃ f stage, st.fill? fill = some f ∧ Turns act fill f.stage stage ∧ ¬φ f ∧
        φ { f with stage := stage } := by
  -- from the end of the run, so that the last act meets the state that it finds
  induction acts using List.reverseRecOn with
  | nil =>
    refine ⟨?_, fun h => absurd h not_took_nil⟩
    rintro ⟨f, hf, -⟩
    exact absurd hf (by simp [run, St.new, St.fill?])
  | append_singleton acts act ih =>
    rw [took_snoc, ← ih, run_snoc]
    constructor
    · rintro ⟨f, hf, hφ⟩
      cases step_fate c (run c .new acts) act fill with
      | same he => exact .inl ⟨f, he.symm.trans hf, hφ⟩
      | started g _ he hq =>
        obtain rfl : f = g := Option.some.inj (hf.symm.trans he)
        exact absurd hφ (hqueued f hq)
      | turned g stage hg hturn he =>
        obtain rfl : f = { g with stage := stage } := Option.some.inj (hf.symm.trans he)
        by_cases hg' : φ g
        · exact .inl ⟨g, hg, hg'⟩
        · exact .inr ⟨g, stage, hg, hturn, hg', hφ⟩
    · rintro (⟨f, hf, hφ⟩ | ⟨f, stage, hf, hturn, -, hφ⟩)
      · cases step_fate c (run c .new acts) act fill with
        | same he => exact ⟨f, he.trans hf, hφ⟩
        | started g hn _ _ => exact absurd (hf.symm.trans hn) (by simp)
        | turned g stage hg hturn he =>
          obtain rfl : f = g := Option.some.inj (hf.symm.trans hg)
          exact ⟨_, he, hkeeps act f stage hturn hφ⟩
      · exact ⟨_, hturn.taken c hf, hφ⟩

end

/-! ## Fills that have ended -/

/-- the act by which a running fill ends with an outcome, or with nothing -/
def endAct (fill : Nat) : Option (Except E V) → Act K V E J
  | some outcome => .finish fill outcome
  | none => .crash fill

/-- what a fill came to, if it has ended -/
def Stage.outcome? : Stage V E → Option (Option (Except E V))
  | .ended outcome | .told outcome => some outcome
  | _ => none

def St.outcome? (st : St K V E J) (fill : Nat) : Option (Option (Except E V)) :=
  (st.fill? fill).bind fun f => f.stage.outcome?

theorem St.outcome?_of_fill? {st : St K V E J} {fill : Nat} {f : Fill K V E J} (hf : st.fill? fill = some f) :
    st.outcome? fill = f.stage.outcome? := by
  rw [outcome?, hf, Option.bind_some]

theorem Stage.outcome?_of_holds {stage : Stage V E} (h : stage.holds = true) : stage.outcome? = none := by
  cases stage with
  | ended outcome => exact absurd h (by simp [Stage.holds])
  | told outcome => exact absurd h (by simp [Stage.holds])
  | _ => rfl

theorem turns_endAct (fill : Nat) (outcome : Option (Except E V)) :
    Turns (endAct fill outcome : Act K V E J) fill .running (.ended outcome) := by
  cases outcome with
  | none => exact .crash fill
  | some outcome => exact .finish fill outcome

/-- a fill that has come to something it had not come to before was running and was ended by the act -/
theorem Turns.of_outcome? {act : Act K V E J} {fill : Nat} {before after : Stage V E} (h : Turns act fill before after)
    (hact : act ≠ .discard fill) {outcome : Option (Except E V)} (hno : before.outcome? ≠ some outcome)
    (ho : after.outcome? = some outcome) : act = endAct fill outcome ∧ before = .running := by
  cases h with
  | begin => exact absurd ho (by simp [Stage.outcome?])
  | tell => exact absurd ho hno
  | drop => exact absurd ho (by simp [Stage.outcome?])
  | cut => exact absurd rfl hact
  | finish _ result =>
    obtain rfl : some result = outcome := Option.some.inj ho
    exact ⟨rfl, rfl⟩
  | crash =>
    obtain rfl : none = outcome := Option.some.inj ho
    exact ⟨rfl, rfl⟩

/-- what a fill came to, it has come to for good -/
theorem Turns.outcome?_keeps {act : Act K V E J} {fill : Nat} {before after : Stage V E}
    (h : Turns act fill before after) {outcome : Option (Except E V)} (ho : before.outcome? = some outcome) :
    after.outcome? = some outcome := by
  cases h with
  | tell => exact ho
  | _ => exact absurd ho (by simp [Stage.outcome?])

section

variable [DecidableEq K] [Footprint K] [Footprint V]

/-- whether a running fill came to an outcome, or to nothing -/
def CameTo (c : Setup) (acts : List (Act K V E J)) (fill : Nat) (outcome : Option (Except E V)) : Prop :=
  Took c acts fun st act => act = endAct fill outcome ∧ ∃ f, st.fill? fill = some f ∧ f.stage = .running

/-- whether the task of a fill of the key was dropped in the queue -/
def Dropped (c : Setup) (acts : List (Act K V E J)) (key : K) (fill : Nat) : Prop :=
  Took c acts fun st act => act = .discard fill ∧ ∃ f, st.fill? fill = some f ∧ f.key = key ∧ f.stage = .queued

variable {c : Setup} {acts : List (Act K V E J)} {fill : Nat}

/-- what a fill came to can be told from its stage, if its task was not dropped -/
theorem cameTo_iff (h : ∀ fill, Act.discard fill ∉ acts) {outcome : Option (Except E V)} :
    CameTo c acts fill outcome ↔ (run c .new acts).outcome? fill = some outcome := by
  have hqueued : ∀ f : Fill K V E J, f.stage = .queued → f.stage.outcome? ≠ some outcome := by
    intro f hq
    rw [hq]
    simp [Stage.outcome?]
  rw [St.outcome?, Option.bind_eq_some_iff,
    became_iff c acts fill hqueued fun _ _ _ hturn ho => hturn.outcome?_keeps ho]
  constructor
  · refine fun hc => hc.mono fun st act _ hnow => ?_
    obtain ⟨rfl, f, hf, hrun⟩ := hnow
    refine ⟨f, .ended outcome, hf, ?_, ?_, rfl⟩
    · rw [hrun]
      exact turns_endAct fill outcome
    · rw [hrun]
      simp [Stage.outcome?]
  · refine fun hc => hc.mono fun st act hact hnow => ?_
    obtain ⟨f, stage, hf, hturn, hno, ho⟩ := hnow
    have hkept : act ≠ .discard fill := fun he => h fill (he ▸ hact)
    obtain ⟨hend, hrun⟩ := hturn.of_outcome? hkept hno ho
    exact ⟨hend, f, hf, hrun⟩

/-- a fill whose task was dropped in the queue can be told by its stage -/
theorem dropped_iff {key : K} :
    Dropped c acts key fill ↔ ∃ f, (run c .new acts).fill? fill = some f ∧ f.key = key ∧ f.stage = .dropped := by
  have hqueued : ∀ f : Fill K V E J, f.stage = .queued → ¬(f.key = key ∧ f.stage = .dropped) := by
    rintro f hq ⟨-, hdropped⟩
    rw [hq] at hdropped
    exact absurd hdropped (by simp)
  rw [became_iff c acts fill hqueued]
  · constructor
    · refine fun hd => hd.mono fun st act _ hnow => ?_
      obtain ⟨rfl, f, hf, hk, hq⟩ := hnow
      refine ⟨f, .dropped, hf, ?_, hqueued f hq, hk, rfl⟩
      rw [hq]
      exact .drop fill
    · refine fun hd => hd.mono fun st act _ hnow => ?_
      obtain ⟨f, stage, hf, hturn, -, hk, hdropped⟩ := hnow
      obtain rfl : stage = .dropped := hdropped
      generalize hbefore : f.stage = before at hturn
      cases hturn with
      | drop => exact ⟨rfl, f, hf, hk, hbefore⟩
  · rintro act f stage hturn ⟨-, hdropped⟩
    rw [hdropped] at hturn
    cases hturn

end

end ChainBridge.Cache
