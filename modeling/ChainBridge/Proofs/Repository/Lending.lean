/-
The lending settings are all or nothing.

An operation on the settings has one load for each slot of the minter. What a slot comes to is what the caller for its
load came away with, read as an amount (`slotOutcome`). If all four are amounts, the settings hold just these
(`answer_of_amounts`); otherwise the answer is the failure of the slot that is declared first among those that failed,
in whatever order they did (`answer_of_failure`). So much is said of an answer by `Assembled`. An amount that a slot
came to has been offered to the cache under the key of the slot, whether or not other slots failed
(`slotOutcome_offered`), and the operation has nothing stored under other keys.
-/
import Mathlib
import ChainBridge.Proofs.Defi.Slots
import ChainBridge.Proofs.Repository.Events

namespace ChainBridge.Repository

/-- the key under which the value of a slot is kept -/
def slotKey (o : Options) (slot : Defi.Slot) : Key := ⟨o.defi.fmintContract, .defi slot, none⟩

/-- what the load of a slot comes to when its caller comes away with something -/
def slotOutcome (o : Options) (slot : Defi.Slot) (sv : Cache.Settled Value Rpc.Error) : Except Error Nat :=
  ofSettled (slotKey o slot) sv >>= expectAmount

/-! ## Answers -/

section

variable {o : Options} {come : Defi.Slot → Cache.Settled Value Rpc.Error}

theorem answer_defi (o : Options) (come : Defi.Slot → Cache.Settled Value Rpc.Error) :
    Operation.defi.answer o (Defi.Slot.all.map come) =
      (settingsOf o (Defi.Slot.all.map fun slot => ofSettled (slotKey o slot) (come slot))).map .settings := rfl

theorem slot_outcomes (o : Options) (come : Defi.Slot → Cache.Settled Value Rpc.Error) :
    Defi.Slot.all.zip ((Defi.Slot.all.map fun slot => ofSettled (slotKey o slot) (come slot)).map fun a =>
      a >>= expectAmount) = Defi.Slot.all.map fun slot => (slot, slotOutcome o slot (come slot)) := rfl

/-- where all slots are amounts, the answer is the settings that hold them -/
theorem answer_of_amounts {value : Defi.Slot → Nat} (h : ∀ slot, slotOutcome o slot (come slot) = .ok (value slot)) :
    Operation.defi.answer o (Defi.Slot.all.map come) = .ok (.settings (.of o.defi value)) := by
  have hcollect := Defi.collect_all fun slot (_ : slot ∈ Defi.Slot.all) => h slot
  have hbuild := Defi.Draft.build_all o.defi value
  rw [Defi.Draft.applyAll] at hbuild
  simp only [answer_defi, settingsOf, slot_outcomes, Defi.aggregate, hcollect, hbuild]
  rfl

/-- otherwise it is the failure of the first slot that failed -/
theorem answer_of_failure {before rest : List Defi.Slot} {slot : Defi.Slot} {source : Error}
    (hall : Defi.Slot.all = before ++ slot :: rest) (hbefore : ∀ b ∈ before, ∃ n, slotOutcome o b (come b) = .ok n)
    (h : slotOutcome o slot (come slot) = .error source) :
    Operation.defi.answer o (Defi.Slot.all.map come) = .error (.aggregation slot source) := by
  have hcollect : Defi.collect ((before ++ slot :: rest).map fun slot => (slot, slotOutcome o slot (come slot))) =
      .error ⟨slot, source⟩ := Defi.collect_first hbefore h
  rw [← hall] at hcollect
  simp only [answer_defi, settingsOf, slot_outcomes, Defi.aggregate, hcollect]
  rfl

/-- whether an answer is made of what the slots came to -/
structure Assembled (o : Options) (outcome : Defi.Slot → Except Error Nat) (answer : Except Error Answer) : Prop where
  complete : (∃ a, answer = .ok a) ↔ ∀ slot, ∃ n, outcome slot = .ok n
  settings : ∀ a, answer = .ok a → ∃ settings, a = .settings settings ∧ settings.addresses = o.defi ∧
    outcome .mintFee = .ok settings.mintFee ∧ outcome .minCollateralRatio = .ok settings.minCollateralRatio ∧
    outcome .rewardCollateralRatio = .ok settings.rewardCollateralRatio ∧
    ∃ scale, outcome .feeDigitsCorrection = .ok scale ∧ settings.decimals = Defi.decimalPlaces scale
  failure : ∀ e, answer = .error e → ∃ before slot rest source, Defi.Slot.all = before ++ slot :: rest ∧
    (∀ b ∈ before, ∃ n, outcome b = .ok n) ∧ outcome slot = .error source ∧ e = .aggregation slot source ∧
    e.rpcKind? = source.rpcKind?

theorem answer_assembled (o : Options) (come : Defi.Slot → Cache.Settled Value Rpc.Error) :
    Assembled o (fun slot => slotOutcome o slot (come slot)) (Operation.defi.answer o (Defi.Slot.all.map come)) := by
  rcases Defi.first_failure (fun slot => slotOutcome o slot (come slot)) Defi.Slot.all with
    hall | ⟨before, slot, rest, source, hall, hbefore, herror⟩
  · have hamounts : ∀ slot, ∃ n, slotOutcome o slot (come slot) = .ok n := fun slot => hall slot slot.mem_all
    choose value hvalue using hamounts
    rw [answer_of_amounts hvalue]
    refine ⟨⟨fun _ slot => ⟨value slot, hvalue slot⟩, fun _ => ⟨_, rfl⟩⟩, fun a ha => ?_, fun e he => ?_⟩
    · obtain rfl := Except.ok.inj ha
      exact ⟨_, rfl, rfl, hvalue _, hvalue _, hvalue _, value .feeDigitsCorrection, hvalue _, rfl⟩
    · exact absurd he (by simp)
  · rw [answer_of_failure hall hbefore herror]
    refine ⟨⟨fun ⟨a, ha⟩ => absurd ha (by simp), fun hamounts => ?_⟩, fun a ha => absurd ha (by simp), fun e he => ?_⟩
    · obtain ⟨n, hn⟩ := hamounts slot
      exact absurd (hn.symm.trans herror) (by simp)
    · obtain rfl := Except.error.inj he
      exact ⟨before, slot, rest, source, hall, hbefore, herror, rfl, rfl⟩

end

/-- a draft that was given the values of all slots becomes settings -/
theorem aggregate_builds {addresses : Defi.Addresses} {outcome : Defi.Slot → Except Error Nat} {draft : Defi.Draft}
    (h : Defi.aggregate Defi.Draft.apply (.new addresses) (Defi.Slot.all.map fun slot => (slot, outcome slot)) =
      (draft, .ok ())) : ∃ settings, draft.build = .ok settings := by
  rcases Defi.first_failure outcome Defi.Slot.all with hall | ⟨before, slot, rest, source, hall, hbefore, herror⟩
  · have hamounts : ∀ slot, ∃ n, outcome slot = .ok n := fun slot => hall slot slot.mem_all
    choose value hvalue using hamounts
    have hcollect := Defi.collect_all fun slot (_ : slot ∈ Defi.Slot.all) => hvalue slot
    rw [Defi.aggregate, hcollect] at h
    obtain ⟨rfl, -⟩ := Prod.mk.inj h
    exact ⟨_, Defi.Draft.build_all addresses value⟩
  · have hcollect : Defi.collect ((before ++ slot :: rest).map fun slot => (slot, outcome slot)) =
        .error ⟨slot, source⟩ := Defi.collect_first hbefore herror
    rw [← hall] at hcollect
    rw [Defi.aggregate, hcollect] at h
    exact absurd (Prod.mk.inj h).2 (by simp)

/-! ## What the slots bring -/

/-- what belongs to the elements of a list without repetition can be told by the element -/
theorem forall₂_of_nodup {α β : Type} [DecidableEq α] {R : α → β → Prop} {l : List α} {m : List β}
    (h : List.Forall₂ R l m) (hnodup : l.Nodup) (other : α → β) :
    ∃ f : α → β, m = l.map f ∧ ∀ a ∈ l, R a (f a) := by
  induction h with
  | nil => exact ⟨other, rfl, fun a ha => absurd ha List.not_mem_nil⟩
  | @cons a b l m hab _ ih =>
    obtain ⟨hfresh, hnodup⟩ := List.nodup_cons.1 hnodup
    obtain ⟨f, rfl, hf⟩ := ih hnodup
    have hsame : ∀ a' ∈ l, Function.update f a b a' = f a' := by
      intro a' ha'
      have hne : a' ≠ a := ne_of_mem_of_not_mem ha' hfresh
      exact Function.update_of_ne hne b f
    refine ⟨Function.update f a b, ?_, ?_⟩
    · rw [List.map_cons, Function.update_self, List.map_congr_left hsame]
    · intro a' ha'
      rcases List.mem_cons.1 ha' with rfl | ha'
      · rw [Function.update_self]
        exact hab
      · rw [hsame a' ha']
        exact hf a' ha'

/-- an operation on the settings has one caller for each slot, and what came away with -/
theorem Return.Brought.slots {o : Options} {before : St} {r : Return} (h : r.Brought o before)
    (hop : r.operation = .defi) :
    ∃ v come, before.visit? r.id = some v ∧ v.operation = .defi ∧ r.settled = Defi.Slot.all.map come ∧
      ∀ slot, ∃ g ∈ before.cache.callers, g.id ∈ v.callers ∧ StandsFor before.cache g.id (slotLoad o slot) ∧
        before.cache.settled? g.id = some (come slot) := by
  obtain ⟨v, hv, hoperation, hloads⟩ := h.loads
  rw [hop] at hoperation hloads
  have hdistinct : Defi.Slot.all.Nodup := by decide
  obtain ⟨come, hsettled, hcame⟩ :=
    forall₂_of_nodup (List.forall₂_map_left_iff.1 hloads) hdistinct fun _ => .abandoned
  exact ⟨v, come, hv, hoperation, hsettled, fun slot => hcame slot slot.mem_all⟩

/-- an amount that a slot comes to was offered to the cache under the key of the slot -/
theorem slotOutcome_offered {s : Setting} {events : List Event} {slot : Defi.Slot} {caller : Nat}
    {sv : Cache.Settled Value Rpc.Error} (hstands : StandsFor (after s events).cache caller (slotLoad s.options slot))
    (hs : (after s events).cache.settled? caller = some sv) {n : Nat} (hn : slotOutcome s.options slot sv = .ok n) :
    Offered s events (slotKey s.options slot) (.amount n) := by
  obtain ⟨outcome, hknown, rfl⟩ := hstands.settled (after_holding s events) hs
  simp only [slotOutcome, bind, Except.bind] at hn
  match outcome with
  | none => exact absurd hn (by simp [Cache.Settled.ofOutcome, ofSettled])
  | some (.error e) => exact absurd hn (by simp [Cache.Settled.ofOutcome, ofSettled])
  | some (.ok (.count c)) => exact absurd hn (by simp [Cache.Settled.ofOutcome, ofSettled, expectAmount])
  | some (.ok (.amount m)) =>
    obtain rfl : m = n := Except.ok.inj hn
    exact hknown (.amount m) rfl

/-! ## What is stored -/

/-- what an operation does by itself stores nothing -/
theorem step_unstored (s : Setting) {st : St} (hs : st.cache.store.Wf) {act : Act}
    (hreply : ∀ fill result, act ≠ .reply fill result) :
    ∀ e ∈ (step s st act).cache.store.entries, e ∈ st.cache.store.entries := by
  intro e he
  rcases happen_stored hs (.own act) e he with he | ⟨o, ho, -⟩
  · exact he
  · cases act with
    | reply fill result => exact absurd rfl (hreply fill result)
    | _ => exact absurd ho (by simp [Event.offer?])

/-- **The lending settings are all or nothing.** Whatever the node replies, and whatever others do to the cache:
- an operation on the settings returns once each of its callers, one for a slot, has come away. Its answer is the
  settings if and only if all four slots came to amounts when it returned, and they hold just these amounts, the decimal
  places of the scale and the configured addresses. Otherwise it is the failure of the slot that is declared first among
  those that failed, as it was;
- an amount that a slot came to was offered to the cache under the key of the slot, and was stored if there was room,
  whether or not another slot failed;
- a draft that was given the values of all slots is never found incomplete;
- what the operation does by itself stores nothing, the loads that it asks for are those of the slots, and a fill that
  it was told to lead stores nothing but under the key of its slot. -/
theorem settings_all_or_nothing (s : Setting) (events : List Event) :
    let st := after s events
    (∀ r ∈ st.returned, r.operation = .defi →
      ∃ pre post v, ∃ outcome : Defi.Slot → Except Error Nat,
        events = pre ++ .own (.resume r.id) :: post ∧ (after s pre).visit? r.id = some v ∧ v.operation = .defi ∧
        (∀ slot, ∃ g ∈ (after s pre).cache.callers, g.id ∈ v.callers ∧ g.key = slotKey s.options slot ∧
          ∃ sv, (after s pre).cache.settled? g.id = some sv ∧ outcome slot = slotOutcome s.options slot sv) ∧
        Assembled s.options outcome r.answer ∧
        ∀ slot n, outcome slot = .ok n → Offered s pre (slotKey s.options slot) (.amount n)) ∧
    (∀ v, st.visit? v.id = some v → v.operation = .defi → v.callers.length = 4 →
      (∀ caller ∈ v.callers, (st.cache.settled? caller).isSome = true) →
      ∃ settled answer, List.Forall₂ (fun caller sv => st.cache.settled? caller = some sv) v.callers settled ∧
        (step s st (.resume v.id)).returned = st.returned ++ [⟨v.id, .defi, settled, answer⟩]) ∧
    (∀ (outcome : Defi.Slot → Except Error Nat) draft,
      Defi.aggregate Defi.Draft.apply (.new s.options.defi) (Defi.Slot.all.map fun slot => (slot, outcome slot)) =
        (draft, .ok ()) → ∃ settings, draft.build = .ok settings) ∧
    (∀ act : Act, (∀ fill result, act ≠ .reply fill result) →
      ∀ e ∈ (step s st act).cache.store.entries, e ∈ st.cache.store.entries) ∧
    ∀ pre ev post a v, events = pre ++ ev :: post → ev.asking? s (after s pre) = some a →
      (after s pre).visit? a.visit = some v → v.operation = .defi →
      ∃ slot, a.load = slotLoad s.options slot ∧ ∀ fill, a.admission = .lead fill → ∀ ev', ev'.ends? = some fill →
        ∀ e ∈ (happen s st ev').cache.store.entries, e ∈ st.cache.store.entries ∨ e.key = slotKey s.options slot := by
  intro st
  have hholding := after_holding s events
  refine ⟨fun r hr hop => ?_, fun v hv hop hlength hcame => ?_, fun outcome draft => aggregate_builds,
    fun act => step_unstored s hholding.wf, fun pre ev post a v he ha hv hop => ?_⟩
  · obtain ⟨pre, post, he, hbrought⟩ := returned_brought s events r hr
    obtain ⟨v, come, hv, hoperation, hsettled, hcame⟩ := hbrought.slots hop
    have hanswer : r.answer = Operation.defi.answer s.options (Defi.Slot.all.map come) := by
      rw [hbrought.answer, hop, hsettled]
    refine ⟨pre, post, v, fun slot => slotOutcome s.options slot (come slot), he, hv, hoperation, fun slot => ?_,
      hanswer ▸ answer_assembled s.options come, fun slot n hn => ?_⟩
    · obtain ⟨g, hg, hid, hstands, hs⟩ := hcame slot
      exact ⟨g, hg, hid, hstands.2 g hg rfl, come slot, hs, rfl⟩
    · obtain ⟨g, -, -, hstands, hs⟩ := hcame slot
      exact slotOutcome_offered hstands hs hn
  · have hnext : v.next? s.options = none := by
      rw [Visit.next?, hop, hlength]
      rfl
    obtain ⟨settled, hall, hreturns⟩ := resume_returns s hv hnext hcame
    rw [hop] at hreturns
    exact ⟨settled, _, hall, hreturns⟩
  · cases ev with
    | other act => exact absurd ha (by simp [Event.asking?])
    | own act =>
      obtain ⟨v', -, hv', hnext, -⟩ := Act.asking?_eq_some ha
      obtain rfl := Option.some.inj (hv'.symm.trans hv)
      have hload : a.load ∈ v'.operation.loads s.options := List.mem_of_getElem? hnext
      rw [hop] at hload
      obtain ⟨slot, -, hslot⟩ := List.mem_map.1 hload
      refine ⟨slot, hslot.symm, fun fill hlead ev' hends e hstored => ?_⟩
      refine (happen_stored hholding.wf ev' e hstored).imp_right ?_
      rintro ⟨o, ho, hkey, -⟩
      obtain ⟨f, hf, hid, hown⟩ := Event.offer_of_ends hends ho
      rw [hkey, hown, led_fill s events he ha hlead f hf hid, ← hslot]
      rfl

/-- the four slots are asked for; the node replies to the last one first, the fill of the third one is lost, and the
second one is refused -/
def tornLending : List Event :=
  List.map .own [.visit .defi, .ask 1, .ask 1, .ask 1, .ask 1, .begin 1, .begin 2, .begin 3, .begin 4,
    .reply 4 (.ok (.text "0x00000000000000000000000000000000000000000000000000000000000003e8")),
    .crash 3, .reply 2 (.error (.remote 3 "reverted")),
    .reply 1 (.ok (.text "0x0000000000000000000000000000000000000000000000000000000000000005")),
    .tell 4, .tell 3, .tell 2, .tell 1]

/-- the operation returns the failure of the second slot, and what the last one came to is kept -/
theorem tornLending_returns :
    let st := after .plain tornLending
    let refused : Rpc.Error := .remote 3 "reverted"
    (∃ settled, List.Forall₂ (fun caller sv => st.cache.settled? caller = some sv) [1, 2, 3, 4] settled ∧
      (step .plain st (.resume 1)).returned =
        [⟨1, .defi, settled, .error (.aggregation .minCollateralRatio (.rpc refused))⟩]) ∧
    (st.cache.store.find? (slotKey Setting.plain.options .feeDigitsCorrection)).map (·.value) =
      some (.amount 1000) := by
  intro st refused
  obtain ⟨-, hreturns, -⟩ := settings_all_or_nothing .plain tornLending
  obtain ⟨settled, answer, hsettled, hreturned⟩ := hreturns ⟨1, .defi, [1, 2, 3, 4]⟩ rfl rfl rfl (by decide)
  have hanswer : (step .plain st (.resume 1)).returned.map (·.answer) =
      [.error (.aggregation .minCollateralRatio (.rpc refused))] := rfl
  rw [hreturned] at hanswer
  obtain rfl : answer = _ := List.head_eq_of_cons_eq hanswer
  exact ⟨⟨settled, hsettled, hreturned⟩, rfl⟩

end ChainBridge.Repository
