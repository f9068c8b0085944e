/-
A bridge shuts down once, and what it has stored expires all the same.

What is true of a life after any sequence of acts is said by `Life.Sound`: only the first call is not ignored, and how
far it has come tells how many signals were sent, whether the sweeper is still held and what the sweeper has yet to
read. `Life.Turn` is all that an act can do to a life. A life does not depend on the cache; the cache only sees what the
repository does and the sweeps of a sweeper that is alive (`traffic`), so what holds of every run of a cache holds here.
- `shuts_down_once`: if a call is made one wins and can go on to its end (`Done`), the sweeper ends before it returns,
  every receiver hears of it once, and lookups are exact before and after.
-/
import Mathlib
import ChainBridge.Bridge.Lifecycle
import ChainBridge.Proofs.Cache.History

namespace ChainBridge.Bridge

variable {K V E J : Type}

namespace CallStage

/-- whether a call has sent the signal -/
def hasSignalled : CallStage → Bool
  | .won | .ignored => false
  | _ => true

/-- whether a call has taken hold of the sweeper, or found that there is none -/
def hasTaken : CallStage → Bool
  | .waiting | .returned | .left => true
  | _ => false

end CallStage

/-! ## Sound lives -/

/-- the calls of a life whose winner has come so far: all but the first are ignored -/
def Ordered (winner : Option CallStage) (calls : List CallStage) : Prop :=
  match winner with
  | none => calls = []
  | some s => s ≠ .ignored ∧ ∃ late, calls = s :: List.replicate late .ignored

/-- the winner stays where it is, or a call wins or goes on -/
def GoesOn (winner winner' : Option CallStage) : Prop :=
  winner' = winner ∨ winner.all CallStage.isUnderWay = true ∧ winner'.isSome = true

namespace Life

/-- what is true of a life after any sequence of acts, when its winner has come so far -/
structure Sound (sweeps : Bool) (winner : Option CallStage) (l : Life) : Prop where
  calls : Ordered winner l.calls
  shutDown : l.shutDown = winner.isSome
  signals : l.signals = if winner.any CallStage.hasSignalled then 1 else 0
  held : l.held = (sweeps && !l.gone && !winner.any CallStage.hasTaken)
  /-- the sweeper does not read before it ends -/
  letters : l.sweeper.isAlive = true → l.letters = l.signals
  off : l.sweeper = .off ↔ sweeps = false
  waits : winner = some .waiting → sweeps = true
  /-- the winner does not return before the sweeper has ended -/
  returned : winner = some .returned → l.sweeper.isAlive = false
  gone : l.gone = true → winner.any CallStage.isUnderWay = false

theorem sound_new (sweeps : Bool) : (new sweeps).Sound sweeps none := by
  cases sweeps <;> constructor <;> simp [new, Ordered, Sweeper.isAlive]

section

variable {sweeps : Bool} {winner : Option CallStage} {l : Life} {id : Nat} {s : CallStage}

/-- a call that was not ignored is the winner -/
theorem Sound.winner_eq (h : l.Sound sweeps winner) (hs : l.calls[id]? = some s) (hne : s ≠ .ignored) :
    id = 0 ∧ winner = some s := by
  cases winner with
  | none =>
    have hnil : l.calls = [] := h.calls
    simp [hnil] at hs
  | some first =>
    obtain ⟨-, late, hcalls⟩ := h.calls
    rw [hcalls] at hs
    cases id with
    | zero =>
      obtain rfl := Option.some.inj hs
      exact ⟨rfl, rfl⟩
    | succ n =>
      rw [List.getElem?_cons_succ] at hs
      exact absurd (List.eq_of_mem_replicate (List.mem_of_getElem? hs)) hne

/-- the first call wins -/
theorem Sound.call_wins (h : l.Sound sweeps none) (hstays : l.gone = false) : l.call.Sound sweeps (some .won) := by
  have hnil : l.calls = [] := h.calls
  have hdown : l.shutDown = false := h.shutDown
  rw [Life.call, if_neg (by simp [hstays]), if_neg (by simp [hdown])]
  refine ⟨⟨by simp, 0, by simp [hnil]⟩, rfl, h.signals, h.held, h.letters, h.off, by simp, by simp, fun hg => ?_⟩
  exact absurd (hstays.symm.trans hg) (by simp)

/-- all others are ignored -/
theorem Sound.call_ignored (h : l.Sound sweeps (some s)) : l.call.Sound sweeps (some s) := by
  have hdown : l.shutDown = true := h.shutDown
  unfold Life.call
  split_ifs with hgone
  · exact h
  · obtain ⟨hne, late, hcalls⟩ := h.calls
    refine ⟨⟨hne, late + 1, ?_⟩, h.shutDown, h.signals, h.held, h.letters, h.off, h.waits, h.returned, h.gone⟩
    rw [hcalls, List.cons_append, List.replicate_succ']

theorem Sound.call (h : l.Sound sweeps winner) : ∃ w, GoesOn winner w ∧ l.call.Sound sweeps w := by
  cases winner with
  | some s => exact ⟨some s, .inl rfl, h.call_ignored⟩
  | none =>
    cases hgone : l.gone with
    | true => exact ⟨none, .inl rfl, by rwa [Life.call, if_pos hgone]⟩
    | false => exact ⟨some .won, .inr ⟨rfl, rfl⟩, h.call_wins hgone⟩

theorem Sound.front (h : l.Sound sweeps (some s)) : l.calls[0]? = some s := by
  obtain ⟨-, late, hcalls⟩ := h.calls
  rw [hcalls]
  rfl

theorem Sound.move_calls (h : l.Sound sweeps (some s)) {next : CallStage} (hnext : next ≠ .ignored) :
    Ordered (some next) (l.move 0 next).calls := by
  obtain ⟨-, late, hcalls⟩ := h.calls
  exact ⟨hnext, late, by simp [move, hcalls]⟩

theorem Sound.signals_won (h : l.Sound sweeps (some .won)) : (l.signal 0).Sound sweeps (some .signalled) := by
  rw [Life.signal, if_pos h.front]
  refine ⟨h.move_calls (by simp), h.shutDown, ?_, h.held, ?_, h.off, by simp, by simp, h.gone⟩
  · show l.signals + 1 = 1
    rw [h.signals]
    rfl
  · intro (halive : l.sweeper.isAlive = true)
    show (if l.sweeper.isAlive = true then l.letters + 1 else l.letters) = l.signals + 1
    rw [if_pos halive, h.letters halive]

/-- the winner finds the sweeper, if there was one from the beginning -/
theorem Sound.takes_signalled (h : l.Sound sweeps (some .signalled)) :
    (l.take 0).Sound sweeps (some (if sweeps then .waiting else .returned)) := by
  have hstays : l.gone = false := Bool.eq_false_iff.2 fun hg => absurd (h.gone hg) (by decide)
  have hheld : l.held = sweeps := by
    rw [h.held, hstays]
    simp [CallStage.hasTaken]
  rw [Life.take, if_pos h.front]
  cases sweeps with
  | true =>
    rw [if_pos hheld]
    refine ⟨h.move_calls (by simp), h.shutDown, h.signals, ?_, h.letters, h.off, fun _ => rfl, by simp, fun hg => ?_⟩
    · simp [CallStage.hasTaken]
    · exact absurd (hstays.symm.trans hg) (by simp)
  | false =>
    have hnone : ¬l.held = true := by simp [hheld]
    rw [if_neg hnone]
    refine ⟨h.move_calls (by simp), h.shutDown, h.signals, hheld, h.letters, h.off, by simp, fun _ => ?_, fun _ => rfl⟩
    show l.sweeper.isAlive = false
    rw [h.off.2 rfl]
    rfl

theorem Sound.concludes_waiting (h : l.Sound sweeps (some .waiting)) (hended : l.sweeper = .ended) :
    (l.conclude 0).Sound sweeps (some .returned) := by
  rw [Life.conclude, if_pos ⟨h.front, hended⟩]
  refine ⟨h.move_calls (by simp), h.shutDown, h.signals, h.held, h.letters, h.off, by simp, fun _ => ?_, fun _ => rfl⟩
  show l.sweeper.isAlive = false
  rw [hended]
  rfl

theorem Sound.leaves_waiting (h : l.Sound sweeps (some .waiting)) : (l.leave 0).Sound sweeps (some .left) := by
  rw [Life.leave, if_pos h.front]
  exact ⟨h.move_calls (by simp), h.shutDown, h.signals, h.held, h.letters, h.off, by simp, by simp, fun _ => rfl⟩

theorem Sound.signal (h : l.Sound sweeps winner) (id : Nat) : ∃ w, GoesOn winner w ∧ (l.signal id).Sound sweeps w := by
  by_cases hwon : l.calls[id]? = some .won
  · obtain ⟨rfl, rfl⟩ := h.winner_eq hwon (by simp)
    exact ⟨_, .inr ⟨rfl, rfl⟩, h.signals_won⟩
  · exact ⟨winner, .inl rfl, by rwa [Life.signal, if_neg hwon]⟩

theorem Sound.take (h : l.Sound sweeps winner) (id : Nat) : ∃ w, GoesOn winner w ∧ (l.take id).Sound sweeps w := by
  by_cases hsignalled : l.calls[id]? = some .signalled
  · obtain ⟨rfl, rfl⟩ := h.winner_eq hsignalled (by simp)
    exact ⟨_, .inr ⟨rfl, rfl⟩, h.takes_signalled⟩
  · exact ⟨winner, .inl rfl, by rwa [Life.take, if_neg hsignalled]⟩

theorem Sound.conclude (h : l.Sound sweeps winner) (id : Nat) :
    ∃ w, GoesOn winner w ∧ (l.conclude id).Sound sweeps w := by
  by_cases hover : l.calls[id]? = some .waiting ∧ l.sweeper = .ended
  · obtain ⟨rfl, rfl⟩ := h.winner_eq hover.1 (by simp)
    exact ⟨_, .inr ⟨rfl, rfl⟩, h.concludes_waiting hover.2⟩
  · exact ⟨winner, .inl rfl, by rwa [Life.conclude, if_neg hover]⟩

theorem Sound.leave (h : l.Sound sweeps winner) (id : Nat) : ∃ w, GoesOn winner w ∧ (l.leave id).Sound sweeps w := by
  by_cases hwaiting : l.calls[id]? = some .waiting
  · obtain ⟨rfl, rfl⟩ := h.winner_eq hwaiting (by simp)
    exact ⟨_, .inr ⟨rfl, rfl⟩, h.leaves_waiting⟩
  · exact ⟨winner, .inl rfl, by rwa [Life.leave, if_neg hwaiting]⟩

/-- a sweeper that is alive may go on or end -/
theorem Sound.sweeper (h : l.Sound sweeps winner) {p : Prop} [Decidable p] (halive : p → l.sweeper.isAlive = true)
    {next : Sweeper} (hnext : next ≠ .off) : (if p then { l with sweeper := next } else l).Sound sweeps winner := by
  split_ifs with hp
  · have hsweeps : ¬sweeps = false := by
      rw [← h.off]
      intro hoff
      have hdead := halive hp
      rw [hoff] at hdead
      exact absurd hdead (by decide)
    refine ⟨h.calls, h.shutDown, h.signals, h.held, fun _ => h.letters (halive hp), iff_of_false hnext hsweeps, h.waits,
      ?_, h.gone⟩
    intro hreturned
    exact absurd (halive hp) (by rw [h.returned hreturned]; decide)
  · exact h

/-- the bridge goes when no call is under way -/
theorem Sound.drop (h : l.Sound sweeps winner) : l.drop.Sound sweeps winner := by
  unfold Life.drop
  split_ifs with hbusy
  · exact h
  · refine ⟨h.calls, h.shutDown, h.signals, by simp, h.letters, h.off, h.waits, h.returned, fun _ => ?_⟩
    cases winner with
    | none => rfl
    | some s =>
      obtain ⟨-, late, hcalls⟩ := h.calls
      simp only [hcalls, List.any_cons, Bool.or_eq_true, not_or] at hbusy
      simpa using hbusy.1

theorem Sound.listen (h : l.Sound sweeps winner) (id : String) : (l.listen id).1.Sound sweeps winner := by
  unfold Life.listen
  split
  · exact h
  · split
    · exact h
    · exact ⟨h.calls, h.shutDown, h.signals, h.held, h.letters, h.off, h.waits, h.returned, h.gone⟩

theorem Sound.step (h : l.Sound sweeps winner) (act : Act K V E J) :
    ∃ w, GoesOn winner w ∧ (l.step act).Sound sweeps w := by
  have hsame : ∀ receivers, { l with receivers := receivers }.Sound sweeps winner := fun _ =>
    ⟨h.calls, h.shutDown, h.signals, h.held, h.letters, h.off, h.waits, h.returned, h.gone⟩
  cases act with
  | call => exact h.call
  | signal id => exact h.signal id
  | take id => exact h.take id
  | conclude id => exact h.conclude id
  | leave id => exact h.leave id
  | begin => exact ⟨winner, .inl rfl, h.sweeper (fun hstarting => by rw [hstarting]; rfl) (by simp)⟩
  | tick => exact ⟨winner, .inl rfl, h.sweeper (fun hwaiting => by rw [hwaiting]; rfl) (by simp)⟩
  | sweep => exact ⟨winner, .inl rfl, h.sweeper (fun hsweeping => by rw [hsweeping]; rfl) (by simp)⟩
  | notice => exact ⟨winner, .inl rfl, h.sweeper (fun hnoticed => by rw [hnoticed.1]; rfl) (by simp)⟩
  | stop => exact ⟨winner, .inl rfl, h.sweeper (fun halive => halive) (by simp)⟩
  | subscribe id =>
    refine ⟨winner, .inl rfl, ?_⟩
    simp only [Life.step, Life.subscribe]
    split_ifs
    · exact h
    · exact hsame _
  | unsubscribe id => exact ⟨winner, .inl rfl, hsame _⟩
  | listen id => exact ⟨winner, .inl rfl, h.listen id⟩
  | drop => exact ⟨winner, .inl rfl, h.drop⟩
  | use act => exact ⟨winner, .inl rfl, h⟩

end

/-! ## Turns -/

/-- all that an act can do to a life -/
inductive Turn (l : Life) (act : Act K V E J) : Life → Prop where
  | same : Turn l act l
  | called (down : Bool) (stage : CallStage) :
      Turn l act { l with shutDown := down, calls := l.calls ++ [stage] }
  | signalled (call : Nat) : act = .signal call → Turn l act (l.signal call)
  | moved (call : Nat) (stage : CallStage) (held : Bool) : Turn l act { l.move call stage with held := held }
  /-- the sweeper goes on or ends -/
  | swept (next : Sweeper) : l.sweeper.isAlive = true → Turn l act { l with sweeper := next }
  | heard (receivers : List Receiver) : (∃ id, act = .subscribe id ∨ act = .unsubscribe id ∨ act = .listen id) →
      Turn l act { l with receivers := receivers }
  | dropped : Turn l act { l with gone := true, held := false }

theorem step_turn (l : Life) (act : Act K V E J) : Turn l act (l.step act) := by
  have hsweeper : ∀ {p : Prop} [Decidable p] (next : Sweeper), (p → l.sweeper.isAlive = true) →
      Turn l act (if p then { l with sweeper := next } else l) := by
    intro p _ next halive
    split_ifs with hp
    · exact .swept next (halive hp)
    · exact .same
  cases act with
  | call =>
    simp only [Life.step, Life.call]
    split_ifs
    · exact .same
    · exact .called l.shutDown .ignored
    · exact .called true .won
  | signal call => exact .signalled call rfl
  | take call =>
    simp only [Life.step, Life.take]
    split_ifs
    · exact .moved call .waiting false
    · exact .moved call .returned l.held
    · exact .same
  | conclude call =>
    simp only [Life.step, Life.conclude]
    split_ifs
    · exact .moved call .returned l.held
    · exact .same
  | leave call =>
    simp only [Life.step, Life.leave]
    split_ifs
    · exact .moved call .left l.held
    · exact .same
  | begin => exact hsweeper .waiting fun h => by rw [h]; rfl
  | tick => exact hsweeper .sweeping fun h => by rw [h]; rfl
  | sweep => exact hsweeper .waiting fun h => by rw [h]; rfl
  | notice => exact hsweeper .ended fun h => by rw [h.1]; rfl
  | stop => exact hsweeper .ended fun h => h
  | subscribe id =>
    simp only [Life.step, Life.subscribe]
    split_ifs
    · exact .same
    · exact .heard _ ⟨id, .inl rfl⟩
  | unsubscribe id => exact .heard _ ⟨id, .inr (.inl rfl)⟩
  | listen id =>
    simp only [Life.step, Life.listen]
    split
    · exact .same
    · split
      · exact .same
      · exact .heard _ ⟨id, .inr (.inr rfl)⟩
  | drop =>
    simp only [Life.step, Life.drop]
    split_ifs
    · exact .same
    · exact .dropped
  | use act => exact .same

/-! ## Receivers -/

/-- whether a receiver has got, taken or not, all the signals but the first so many -/
def Tuned (l : Life) (id : String) (before : Nat) : Prop :=
  ∃ r, l.receivers.find? (fun r => r.id == id) = some r ∧ before + r.inbox + r.heard = l.signals

section

variable {l : Life} {id : String} {before : Nat}

/-- changes that leave the names of receivers as they are -/
theorem find?_map_receiver (l : Life) (id : String) {f : Receiver → Receiver} (hf : ∀ r, (f r).id = r.id) :
    (l.receivers.map f).find? (fun r => r.id == id) = (l.receivers.find? fun r => r.id == id).map f := by
  rw [List.find?_map]
  congr 2
  funext r
  simp [hf]

/-- a receiver that goes is not found, and nobody else goes with it -/
theorem find?_filter_receiver (l : Life) (id other : String) :
    (l.receivers.filter fun r => r.id != other).find? (fun r => r.id == id) =
      if other = id then none else l.receivers.find? fun r => r.id == id := by
  rw [List.find?_filter]
  split_ifs with hname
  · exact List.find?_eq_none.2 fun r _ => by simp [hname]
  · refine congrArg (fun p => l.receivers.find? p) (funext fun r => ?_)
    by_cases hr : r.id = id
    · simp [hr, Ne.symm hname]
    · simp [hr]

theorem tuned_subscribe (h : l.gone = false) (id : String) : (l.subscribe id).Tuned id l.signals := by
  rw [Life.subscribe, if_neg (by simp [h])]
  refine ⟨⟨id, 0, 0⟩, ?_, rfl⟩
  rw [List.find?_append, find?_filter_receiver, if_pos rfl]
  simp

theorem Tuned.signal (h : l.Tuned id before) (call : Nat) : (l.signal call).Tuned id before := by
  by_cases hwon : l.calls[call]? = some .won
  · obtain ⟨r, hr, hsum⟩ := h
    rw [Life.signal, if_pos hwon]
    refine ⟨r.getsSignal, ?_, ?_⟩
    · exact (find?_map_receiver l id (f := Receiver.getsSignal) fun _ => rfl).trans (by rw [hr]; rfl)
    · show before + (r.inbox + 1) + r.heard = l.signals + 1
      omega
  · rwa [Life.signal, if_neg hwon]

/-- another receiver comes, in place of one of its name -/
theorem Tuned.subscribe (h : l.Tuned id before) {other : String} (hne : other ≠ id) :
    (l.subscribe other).Tuned id before := by
  unfold Life.subscribe
  split_ifs with hgone
  · exact h
  · obtain ⟨r, hr, hsum⟩ := h
    refine ⟨r, ?_, hsum⟩
    rw [List.find?_append, find?_filter_receiver, if_neg hne, hr]
    rfl

/-- another receiver goes -/
theorem Tuned.unsubscribe (h : l.Tuned id before) {other : String} (hne : other ≠ id) :
    (l.unsubscribe other).Tuned id before := by
  obtain ⟨r, hr, hsum⟩ := h
  exact ⟨r, by rw [Life.unsubscribe, find?_filter_receiver, if_neg hne, hr], hsum⟩

theorem Tuned.listen (h : l.Tuned id before) (other : String) : (l.listen other).1.Tuned id before := by
  obtain ⟨r, hr, hsum⟩ := h
  unfold Life.listen
  split
  · exact ⟨r, hr, hsum⟩
  · rename_i found hfound
    split
    · exact ⟨r, hr, hsum⟩
    · rename_i hsome
      refine ⟨_, (find?_map_receiver l id fun r => by split_ifs <;> rfl).trans (by rw [hr, Option.map_some]), ?_⟩
      split_ifs with hname
      · -- it is the receiver itself that listens
        have hid : r.id = id := by simpa using List.find?_some hr
        have hother : other = id := by rw [← hid]; exact (beq_iff_eq.1 hname).symm
        rw [hother, hr] at hfound
        obtain rfl := Option.some.inj hfound
        show before + (r.inbox - 1) + (r.heard + 1) = l.signals
        omega
      · exact hsum

theorem Tuned.step (h : l.Tuned id before) {act : Act K V E J} (hsub : act ≠ .subscribe id)
    (hunsub : act ≠ .unsubscribe id) : (l.step act).Tuned id before := by
  have hturn := l.step_turn act
  generalize hnext : l.step act = next at hturn ⊢
  cases hturn with
  | signalled call => exact h.signal call
  | heard receivers hact =>
    rw [← hnext]
    obtain ⟨other, rfl | rfl | rfl⟩ := hact
    · exact h.subscribe fun hname => hsub (by rw [hname])
    · exact h.unsubscribe fun hname => hunsub (by rw [hname])
    · exact h.listen other
  | _ => exact h

end

/-! ## Going on -/

section

variable {sweeps : Bool} {winner : Option CallStage} {l : Life}

/-- a sweeper that has ended does not come back -/
theorem step_ended (hended : l.sweeper.isAlive = false) (act : Act K V E J) : (l.step act).sweeper = l.sweeper := by
  have hturn := l.step_turn act
  generalize l.step act = next at hturn ⊢
  cases hturn with
  | swept next halive => exact absurd (hended.symm.trans halive) (by simp)
  | signalled call =>
    unfold Life.signal
    split <;> rfl
  | _ => rfl

theorem Sound.sweeper_goes (h : l.Sound sweeps winner) : l.begin.swept.notice.Sound sweeps winner := by
  have hbegun : l.begin.Sound sweeps winner := h.sweeper (fun hp => by rw [hp]; rfl) (by simp)
  have hswept : l.begin.swept.Sound sweeps winner := hbegun.sweeper (fun hp => by rw [hp]; rfl) (by simp)
  exact hswept.sweeper (fun hp => by rw [hp.1]; rfl) (by simp)

/-- a sweeper that has been signalled ends when it has begun, or has swept, and looks -/
theorem Sound.sweeper_ends (h : l.Sound sweeps (some .waiting)) : l.begin.swept.notice.sweeper = .ended := by
  have hletters : l.sweeper.isAlive = true → l.letters ≠ 0 := by
    intro halive
    rw [h.letters halive, h.signals]
    decide
  cases hsweeper : l.sweeper with
  | off => exact absurd (h.off.1 hsweeper) (by simp [h.waits rfl])
  | ended => simp [begin, swept, notice, hsweeper]
  | _ => simp [begin, swept, notice, hsweeper, hletters (by rw [hsweeper]; rfl)]

/-- a winner that is under way comes to its end when it goes on and the sweeper does -/
theorem Sound.winner_returns {s : CallStage} (h : l.Sound sweeps (some s)) (hway : s.isUnderWay = true) :
    (((l.signal 0).take 0).begin.swept.notice.conclude 0).Sound sweeps (some .returned) := by
  have htaken : ∀ l' : Life, l'.Sound sweeps (some (if sweeps then .waiting else .returned)) →
      (l'.begin.swept.notice.conclude 0).Sound sweeps (some .returned) := by
    intro l' h'
    cases sweeps with
    | true => exact h'.sweeper_goes.concludes_waiting h'.sweeper_ends
    | false =>
      have hreturned : l'.begin.swept.notice.Sound false (some .returned) := h'.sweeper_goes
      rwa [Life.conclude, if_neg (by rw [hreturned.front]; simp)]
  cases s with
  | won => exact htaken _ h.signals_won.takes_signalled
  | signalled =>
    have hsame : l.signal 0 = l := if_neg (by rw [h.front]; simp)
    rw [hsame]
    exact htaken _ h.takes_signalled
  | waiting =>
    have hsame : l.signal 0 = l := if_neg (by rw [h.front]; simp)
    have hkept : l.take 0 = l := if_neg (by rw [h.front]; simp)
    obtain rfl : sweeps = true := h.waits rfl
    rw [hsame, hkept]
    exact htaken l h
  | _ => exact absurd hway (by decide)

/-- the first call, if nothing comes between, returns when it has sent the signal and the sweeper has ended -/
theorem Sound.shutdown_returns (h : l.Sound sweeps none) (hstays : l.gone = false) :
    l.shutdown.Sound sweeps (some .returned) := by
  have hnil : l.calls = [] := h.calls
  rw [Life.shutdown, hnil]
  exact (h.call_wins hstays).winner_returns rfl

/-- a call once made keeps its place -/
theorem step_calls_length (l : Life) (act : Act K V E J) : l.calls.length ≤ (l.step act).calls.length := by
  have hturn := l.step_turn act
  generalize l.step act = next at hturn ⊢
  cases hturn with
  | called down stage => simp
  | signalled call =>
    unfold Life.signal
    split <;> simp [move]
  | moved call stage held => simp [move]
  | _ => exact Nat.le_refl _

/-- of the calls that were made, just the first one is not ignored -/
theorem Sound.call_at (h : l.Sound sweeps winner) {id : Nat} (hid : id < l.calls.length) :
    ∃ s, l.calls[id]? = some s ∧ (s = .ignored ↔ id ≠ 0) := by
  cases winner with
  | none =>
    have hnil : l.calls = [] := h.calls
    exact absurd hid (by simp [hnil])
  | some w =>
    obtain ⟨hne, late, hcalls⟩ := h.calls
    rw [hcalls] at hid ⊢
    cases id with
    | zero => exact ⟨w, rfl, iff_of_false hne (by simp)⟩
    | succ n =>
      rw [List.length_cons, List.length_replicate] at hid
      refine ⟨.ignored, ?_, iff_of_true rfl (by simp)⟩
      rw [List.getElem?_cons_succ, List.getElem?_replicate_of_lt (by omega)]

end

end Life

/-! ## Runs -/

section

variable {sweeps : Bool} {winner : Option CallStage} {l : Life}

/-- what is done to the cache in a life, by the repository and by the sweeper -/
def traffic (l : Life) : List (Act K V E J) → List (Cache.Act K V E J)
  | [] => []
  | act :: rest => (act.effect? l).toList ++ traffic (l.step act) rest

/-- what the repository does to its cache -/
def uses : List (Act K V E J) → List (Cache.Act K V E J)
  | [] => []
  | .use act :: rest => act :: uses rest
  | _ :: rest => uses rest

/-- when the sweeper has ended, only the repository does something to its cache -/
theorem traffic_ended (hended : l.sweeper.isAlive = false) (acts : List (Act K V E J)) :
    traffic l acts = uses acts := by
  induction acts generalizing l with
  | nil => rfl
  | cons act rest ih =>
    have hrest := ih (l := l.step act) (by rw [Life.step_ended hended]; exact hended)
    cases act with
    | use act => rw [traffic, hrest]; rfl
    | sweep =>
      have hidle : l.sweeper ≠ .sweeping := fun h => by
        rw [h] at hended
        exact absurd hended (by decide)
      rw [traffic, hrest, Act.effect?, if_neg hidle]
      rfl
    | _ => rw [traffic, hrest]; rfl

theorem GoesOn.trans {w w' w'' : Option CallStage} (h : GoesOn w w') (h' : GoesOn w' w'') : GoesOn w w'' := by
  rcases h with rfl | ⟨hway, hsome⟩
  · exact h'
  · rcases h' with rfl | ⟨-, hsome'⟩
    · exact .inr ⟨hway, hsome⟩
    · exact .inr ⟨hway, hsome'⟩

variable [DecidableEq K] [Footprint K] [Footprint V]

theorem run_append (c : Cache.Setup) (st : St K V E J) (acts more : List (Act K V E J)) :
    run c st (acts ++ more) = run c (run c st acts) more := List.foldl_append

/-- the cache comes to what its traffic alone makes of it -/
theorem run_cache (c : Cache.Setup) (st : St K V E J) (acts : List (Act K V E J)) :
    (run c st acts).cache = Cache.run c st.cache (traffic st.life acts) := by
  induction acts generalizing st with
  | nil => rfl
  | cons act rest ih =>
    show (run c (step c st act) rest).cache = _
    rw [ih, traffic]
    cases heffect : act.effect? st.life with
    | none => simp [step, heffect]
    | some a => simp [step, heffect, Cache.run]

theorem run_calls_length (c : Cache.Setup) (st : St K V E J) (acts : List (Act K V E J)) :
    st.life.calls.length ≤ (run c st acts).life.calls.length := by
  induction acts generalizing st with
  | nil => exact Nat.le_refl _
  | cons act rest ih => exact (st.life.step_calls_length act).trans (ih (step c st act))

theorem run_sound (c : Cache.Setup) (st : St K V E J) (h : st.life.Sound sweeps winner) (acts : List (Act K V E J)) :
    ∃ w, GoesOn winner w ∧ (run c st acts).life.Sound sweeps w := by
  induction acts generalizing st winner with
  | nil => exact ⟨winner, .inl rfl, h⟩
  | cons act rest ih =>
    obtain ⟨w, hw, hstep⟩ := h.step act
    obtain ⟨w', hw', hrun⟩ := ih (step c st act) hstep
    exact ⟨w', hw.trans hw', hrun⟩

theorem run_tuned (c : Cache.Setup) (st : St K V E J) {id : String} {before : Nat} (h : st.life.Tuned id before)
    {acts : List (Act K V E J)}
    (hacts : ∀ act ∈ acts, act ≠ .subscribe id ∧ act ≠ .unsubscribe id) : (run c st acts).life.Tuned id before := by
  induction acts generalizing st with
  | nil => exact h
  | cons act rest ih =>
    obtain ⟨hsub, hunsub⟩ := hacts act List.mem_cons_self
    exact ih (step c st act) (h.step hsub hunsub) fun a ha => hacts a (List.mem_cons_of_mem act ha)

end

/-! ## Shutdown -/

variable [DecidableEq K] [Footprint K] [Footprint V]

/-- whether the call that made a life what it is has been carried out to its end: one signal was sent, and there is no
sweeper any more -/
structure Done (sweeps : Bool) (l : Life) : Prop where
  returned : l.calls[0]? = some .returned
  signals : l.signals = 1
  held : l.held = false
  sweeper : l.sweeper = if sweeps then .ended else .off

/-- how a bridge is shut down, as seen from the state that some acts have led to -/
structure Orderly (c : Cache.Setup) (sweeps : Bool) (acts : List (Act K V E J)) (st : St K V E J) : Prop where
  /-- a call that was made while there was a bridge has shut it down and has its place among the calls; it is the first
  one, and not ignored, just if the bridge had not been shut down before -/
  made : ∀ pre post, acts = pre ++ .call :: post → (run c (.new sweeps) pre).life.gone = false →
    st.life.shutDown = true ∧ ∃ s, st.life.calls[(run c (.new sweeps) pre).life.calls.length]? = some s ∧
      (s ≠ .ignored ↔ (run c (.new sweeps) pre).life.shutDown = false)
  /-- if there are calls, the first one won; it alone sends the signal and takes hold of the sweeper -/
  calls : st.life.calls = [] ∧ st.life.signals = 0 ∨ ∃ winner late,
    st.life.calls = winner :: List.replicate late .ignored ∧ winner ≠ .ignored ∧
    st.life.signals = (if winner.hasSignalled then 1 else 0) ∧
    st.life.held = (sweeps && !st.life.gone && !winner.hasTaken)
  /-- a call that comes later is ignored, and an ignored call does nothing -/
  late : st.life.shutDown = true → st.life.gone = false →
    step c st .call = { st with life := { st.life with calls := st.life.calls ++ [.ignored] } }
  ignored : ∀ id, st.life.calls[id]? = some .ignored →
    ∀ act ∈ [.signal id, .take id, .conclude id, .leave id], step c st act = st
  shutDown : st.life.shutDown = true ↔ st.life.calls ≠ []
  stays : st.life.shutDown = true → ∀ more, (run c st more).life.shutDown = true
  /-- when the winner has returned, the sweeper has ended, and only the repository does something to its cache -/
  returned : st.life.calls[0]? = some .returned → st.life.sweeper = (if sweeps then .ended else .off) ∧
    ∀ more, (run c st more).cache = Cache.run c st.cache (uses more)
  /-- a winner that is under way can go on until it returns, with the one signal sent and the sweeper ended -/
  returns : ∀ s, st.life.calls[0]? = some s → s.isUnderWay = true →
    Done sweeps (run c st [.signal 0, .take 0, .begin, .sweep, .notice, .conclude 0]).life
  /-- a bridge that is not shut down is shut down by a call that nothing comes between -/
  atOnce : st.life.shutDown = false → st.life.gone = false →
    Done sweeps st.life.shutdown ∧ st.life.shutdown.shutDown = true
  /-- a receiver gets the signals that were sent since it subscribed, each of them once -/
  receivers : ∀ pre id post, acts = pre ++ .subscribe id :: post → (run c (.new sweeps) pre).life.gone = false →
    (∀ act ∈ post, act ≠ .subscribe id ∧ act ≠ .unsubscribe id) →
    ∃ r, st.life.receivers.find? (fun r => r.id == id) = some r ∧
      (run c (.new sweeps) pre).life.signals + r.inbox + r.heard = st.life.signals ∧
      ((st.life.listen id).2 = .signal ↔ r.inbox ≠ 0)
  /-- what is found or served has been written and has not expired -/
  lookups : ∀ key value,
    ((st.cache.get c key).2 = some value ↔ ∃ since ttl,
      Cache.Stands c (traffic (.new sweeps) acts) key value since ttl ∧ st.cache.now < since + ttl) ∧
    ∀ lifetime job,
      ((st.cache.fetch c key lifetime job).1.callers =
        st.cache.callers ++ [⟨st.cache.nextCaller, key, .served value⟩] ↔ ∃ since ttl,
        Cache.Stands c (traffic (.new sweeps) acts) key value since ttl ∧ st.cache.now < since + ttl)

theorem Life.Sound.sweeper_of_ended {sweeps : Bool} {winner : Option CallStage} {l : Life} (h : l.Sound sweeps winner)
    (hended : l.sweeper.isAlive = false) : l.sweeper = if sweeps then .ended else .off := by
  cases sweeps with
  | true =>
    cases hsweeper : l.sweeper with
    | off => exact absurd (h.off.1 hsweeper) (by simp)
    | ended => rfl
    | _ => exact absurd (hsweeper ▸ hended) (by decide)
  | false => exact h.off.2 rfl

theorem Life.Sound.done {sweeps : Bool} {l : Life} (h : l.Sound sweeps (some .returned)) : Done sweeps l := by
  refine ⟨h.front, h.signals, ?_, h.sweeper_of_ended (h.returned rfl)⟩
  rw [h.held]
  simp [CallStage.hasTaken]

theorem Life.Tuned.listen_signal {l : Life} {id : String} {r : Receiver}
    (hr : l.receivers.find? (fun r => r.id == id) = some r) : (l.listen id).2 = .signal ↔ r.inbox ≠ 0 := by
  simp only [Life.listen, hr]
  split
  · split_ifs <;> simp_all
  · simp_all

theorem GoesOn.isSome {w w' : Option CallStage} (h : GoesOn w w') (hsome : w.isSome = true) : w'.isSome = true := by
  rcases h with rfl | ⟨-, hsome'⟩
  · exact hsome
  · exact hsome'

/-- there are calls just if the life is shut down -/
theorem Life.Sound.calls_eq_nil {sweeps : Bool} {winner : Option CallStage} {l : Life} (h : l.Sound sweeps winner) :
    l.calls = [] ↔ l.shutDown = false := by
  rw [h.shutDown]
  cases winner with
  | none => exact iff_of_true h.calls rfl
  | some s =>
    obtain ⟨-, late, hcalls⟩ := h.calls
    simp [hcalls]

/-- a call that was made while there was a bridge has shut it down, and keeps its place -/
theorem call_placed (c : Cache.Setup) (sweeps : Bool) (pre post : List (Act K V E J))
    (hstays : (run c (.new sweeps) pre).life.gone = false) :
    let before := (run c (.new sweeps) pre).life
    let after := (run c (.new sweeps) (pre ++ .call :: post)).life
    after.shutDown = true ∧ ∃ s, after.calls[before.calls.length]? = some s ∧
      (s ≠ .ignored ↔ before.shutDown = false) := by
  intro before after
  obtain ⟨_, -, hbefore⟩ := run_sound c (.new sweeps : St K V E J) (Life.sound_new sweeps) pre
  obtain ⟨_, -, hafter⟩ := run_sound c (.new sweeps : St K V E J) (Life.sound_new sweeps) (pre ++ .call :: post)
  have hcalled : before.calls.length < before.call.calls.length := by
    rw [Life.call, if_neg (by simp [before, hstays])]
    split_ifs <;> simp
  have hlater : before.call.calls.length ≤ after.calls.length := by
    have hlater := run_calls_length c (step c (run c (.new sweeps) pre) .call) post
    simp only [after, run_append]
    exact hlater
  have hplace : before.calls.length < after.calls.length := hcalled.trans_le hlater
  obtain ⟨s, hs, hignored⟩ := hafter.call_at hplace
  refine ⟨?_, s, hs, ?_⟩
  · refine eq_true_of_ne_false fun hdown => ?_
    have hnil : after.calls = [] := hafter.calls_eq_nil.2 hdown
    exact absurd hplace (by simp [hnil])
  · rw [ne_eq, hignored, not_not, List.length_eq_zero_iff, hbefore.calls_eq_nil]

/-- **A bridge shuts down once.** After any sequence of acts, whoever called, whatever the sweeper was at and whatever
the repository did: if a call for shutdown was made the bridge is shut down, the first call wins, and all others have
no effect, then and later. The winner sends the one signal and takes hold of the sweeper, and can always go on until it
returns; when it does, the sweeper has ended for good. A bridge that is shut down stays so. A receiver gets every signal
that is sent after it subscribed, and there is one. A lookup finds a value if and only if a write of it stands and has
not expired, with or without a sweeper. -/
theorem shuts_down_once (c : Cache.Setup) (sweeps : Bool) (acts : List (Act K V E J)) :
    Orderly c sweeps acts (run c (.new sweeps) acts) := by
  obtain ⟨winner, -, h⟩ := run_sound c (.new sweeps : St K V E J) (Life.sound_new sweeps) acts
  have hcache := run_cache c (.new sweeps) acts
  constructor
  case made =>
    rintro pre post rfl hstays
    exact call_placed c sweeps pre post hstays
  case calls =>
    cases winner with
    | none => exact .inl ⟨h.calls, h.signals⟩
    | some s =>
      obtain ⟨hne, late, hcalls⟩ := h.calls
      exact .inr ⟨s, late, hcalls, hne, h.signals, h.held⟩
  case late =>
    intro hdown hstays
    simp [step, Life.step, Life.call, Act.effect?, hdown, hstays]
  case ignored =>
    intro id hid act hact
    simp only [List.mem_cons, List.not_mem_nil, or_false] at hact
    rcases hact with rfl | rfl | rfl | rfl
    · simp [step, Life.step, Life.signal, Act.effect?, hid]
    · simp [step, Life.step, Life.take, Act.effect?, hid]
    · simp [step, Life.step, Life.conclude, Act.effect?, hid]
    · simp [step, Life.step, Life.leave, Act.effect?, hid]
  case shutDown =>
    rw [ne_eq, h.calls_eq_nil, Bool.not_eq_false]
  case stays =>
    intro hdown more
    obtain ⟨w, hw, hmore⟩ := run_sound c _ h more
    rw [hmore.shutDown]
    exact hw.isSome (h.shutDown.symm.trans hdown)
  case returned =>
    intro hreturned
    obtain ⟨-, rfl⟩ := h.winner_eq hreturned (by simp)
    have hended := h.returned rfl
    refine ⟨h.sweeper_of_ended hended, fun more => ?_⟩
    rw [run_cache, traffic_ended hended]
  case returns =>
    intro s hs hway
    obtain ⟨-, rfl⟩ := h.winner_eq hs (by rintro rfl; exact absurd hway (by decide))
    exact (h.winner_returns hway).done
  case atOnce =>
    intro hdown hstays
    obtain rfl : winner = none := by simpa [h.shutDown] using hdown
    have hreturned := h.shutdown_returns hstays
    exact ⟨hreturned.done, hreturned.shutDown⟩
  case receivers =>
    rintro pre id post rfl hstays hpost
    rw [run_append]
    obtain ⟨r, hr, hsum⟩ := run_tuned c (step c (run c (.new sweeps) pre) (.subscribe id))
      (Life.tuned_subscribe hstays id) hpost
    exact ⟨r, hr, hsum, Life.Tuned.listen_signal hr⟩
  case lookups =>
    intro key value
    have hlookup := Cache.lookup_hit_iff_stands c (traffic (.new sweeps) acts) key value
    rw [hcache]
    exact ⟨Cache.get_hit_iff.trans hlookup, fun lifetime job => Cache.fetch_served_iff.trans hlookup⟩

/-- the sweeper is about to sweep when it is signalled, and another call comes before the winner has taken hold of it;
it sweeps once more and ends -/
def sweptShutdown : List (Act Nat Nat String Unit) :=
  [.subscribe "tip", .begin, .tick, .call, .signal 0, .call, .take 0, .sweep, .notice, .conclude 0]

/-- the first call sends the one signal and returns, the second one is ignored, the receiver hears the signal, and no
sweep touches the cache from then on -/
theorem sweptShutdown_returns :
    let st := run .plain (.new true) sweptShutdown
    st.life.shutDown = true ∧ st.life.calls = [.returned, .ignored] ∧ st.life.signals = 1 ∧
    st.life.sweeper = .ended ∧ (st.life.listen "tip").2 = .signal ∧
    ∀ more, (run .plain st more).cache = Cache.run .plain st.cache (uses more) := by
  intro st
  have h := shuts_down_once .plain true sweptShutdown
  have hcalls : st.life.calls = [.returned, .ignored] := by decide
  obtain ⟨hdown, -⟩ := h.made [.subscribe "tip", .begin, .tick] _ rfl (by decide)
  obtain ⟨hended, hlater⟩ := h.returned (by rw [hcalls]; rfl)
  obtain ⟨r, hr, -, hheard⟩ := h.receivers [] "tip" _ rfl (by decide) (by simp)
  obtain rfl : ⟨"tip", 1, 0⟩ = r := Option.some.inj hr
  exact ⟨hdown, hcalls, by decide, hended, hheard.2 (by decide), hlater⟩

end ChainBridge.Bridge
