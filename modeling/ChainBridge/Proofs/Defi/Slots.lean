/-
Slots that are loaded, collected and built into settings.

What is collected is the values of all slots, or a failure of one of them (`collect_ok`, `collect_error`), which is the
first in their order (`collect_first`). A draft knows a slot once a value was noted for it (`knows_applyAll`), and
becomes settings if and only if it knows every slot (`build_isOk_iff`); then these hold what was noted (`build_all`).
-/
import Mathlib
import ChainBridge.Defi.Aggregate
import ChainBridge.Defi.Settings

namespace ChainBridge

section

variable {E α β : Type} {r : Except E α} {f : α → β}

theorem map_eq_ok_iff {b : β} : r.map f = .ok b ↔ ∃ a, r = .ok a ∧ f a = b := by
  cases r <;> simp [Except.map]

theorem map_eq_error_iff {e : E} : r.map f = .error e ↔ r = .error e := by
  cases r <;> simp [Except.map]

end

namespace Defi

variable {S T E : Type} {outcomes : List (S × Except E T)}

/-- what is collected is every value, and nothing has failed -/
theorem collect_ok {values : List (S × T)} (h : collect outcomes = .ok values) :
    outcomes = values.map fun v => (v.1, .ok v.2) := by
  induction outcomes generalizing values with
  | nil =>
    obtain rfl := Except.ok.inj h
    rfl
  | cons first rest ih =>
    obtain ⟨slot, outcome⟩ := first
    cases outcome with
    | error e => exact absurd h (by simp [collect])
    | ok v =>
      obtain ⟨others, hrest, rfl⟩ := map_eq_ok_iff.1 h
      rw [ih hrest]
      rfl

/-- the failure that is reported is one of those that there are -/
theorem collect_error {f : Failure S E} (h : collect outcomes = .error f) : (f.slot, .error f.error) ∈ outcomes := by
  induction outcomes with
  | nil => exact absurd h (by simp [collect])
  | cons first rest ih =>
    obtain ⟨slot, outcome⟩ := first
    cases outcome with
    | error e =>
      obtain rfl := Except.error.inj h
      exact List.mem_cons_self
    | ok v => exact List.mem_cons_of_mem _ (ih (map_eq_error_iff.1 h))

/-- of outcomes in order either none has failed, or one has before which none did -/
theorem first_failure (outcome : S → Except E T) (slots : List S) :
    (∀ slot ∈ slots, ∃ v, outcome slot = .ok v) ∨
    ∃ before slot after e, slots = before ++ slot :: after ∧ (∀ b ∈ before, ∃ v, outcome b = .ok v) ∧
      outcome slot = .error e := by
  induction slots with
  | nil => exact .inl fun _ h => absurd h List.not_mem_nil
  | cons first rest ih =>
    cases hfirst : outcome first with
    | error e => exact .inr ⟨[], first, rest, e, rfl, fun _ h => absurd h List.not_mem_nil, hfirst⟩
    | ok v =>
      rcases ih with hall | ⟨before, slot, after, e, rfl, hbefore, herror⟩
      · exact .inl fun slot hslot => (List.mem_cons.1 hslot).elim (fun he => ⟨v, he ▸ hfirst⟩) (hall slot)
      · refine .inr ⟨first :: before, slot, after, e, rfl, fun b hb => ?_, herror⟩
        rcases List.mem_cons.1 hb with rfl | hb
        · exact ⟨v, hfirst⟩
        · exact hbefore b hb

/-- the failure that is reported is the first in order -/
theorem collect_first {outcome : S → Except E T} {before after : List S} {slot : S} {e : E}
    (hbefore : ∀ b ∈ before, ∃ v, outcome b = .ok v) (herror : outcome slot = .error e) :
    collect ((before ++ slot :: after).map fun slot => (slot, outcome slot)) = .error ⟨slot, e⟩ := by
  induction before with
  | nil =>
    rw [List.nil_append, List.map_cons, herror]
    rfl
  | cons b rest ih =>
    obtain ⟨v, hv⟩ := hbefore b List.mem_cons_self
    rw [List.cons_append, List.map_cons, hv, collect, ih fun b' hb' => hbefore b' (List.mem_cons_of_mem b hb')]
    rfl

/-- the values of all slots, if none has failed -/
theorem collect_all {outcome : S → Except E T} {value : S → T} {slots : List S}
    (h : ∀ slot ∈ slots, outcome slot = .ok (value slot)) :
    collect (slots.map fun slot => (slot, outcome slot)) = .ok (slots.map fun slot => (slot, value slot)) := by
  induction slots with
  | nil => rfl
  | cons first rest ih =>
    rw [List.map_cons, h first List.mem_cons_self, collect, ih fun slot hslot => h slot (List.mem_cons_of_mem _ hslot)]
    rfl

/-- the settings that the values of the slots make -/
def Settings.of (addresses : Addresses) (value : Slot → Nat) : Settings :=
  ⟨addresses, value .mintFee, value .minCollateralRatio, value .rewardCollateralRatio,
    decimalPlaces (value .feeDigitsCorrection)⟩

namespace Draft

/-- whether a value was noted for a slot -/
def knows (d : Draft) : Slot → Bool
  | .mintFee => d.mintFee.isSome
  | .minCollateralRatio => d.minCollateralRatio.isSome
  | .rewardCollateralRatio => d.rewardCollateralRatio.isSome
  | .feeDigitsCorrection => d.decimals.isSome

theorem knows_apply (d : Draft) (slot : Slot) (value : Nat) (other : Slot) :
    (d.apply slot value).knows other = (decide (other = slot) || d.knows other) := by
  cases slot <;> cases other <;> rfl

theorem knows_applyAll (d : Draft) (values : List (Slot × Nat)) (slot : Slot) :
    (d.applyAll values).knows slot = (decide (slot ∈ values.map Prod.fst) || d.knows slot) := by
  induction values generalizing d with
  | nil => simp [applyAll]
  | cons v rest ih =>
    have hfirst : d.applyAll (v :: rest) = (d.apply v.1 v.2).applyAll rest := rfl
    rw [hfirst, ih, knows_apply, List.map_cons]
    simp only [List.mem_cons, Bool.decide_or, ← Bool.or_assoc, Bool.or_comm]

/-- a draft becomes settings if and only if it knows every slot -/
theorem build_isOk_iff (d : Draft) : (∃ settings, d.build = .ok settings) ↔ ∀ slot, d.knows slot = true := by
  obtain ⟨addresses, fee, low, reward, decimals⟩ := d
  constructor
  · rintro ⟨settings, h⟩ slot
    cases fee <;> cases low <;> cases reward <;> cases decimals <;> simp [build] at h
    cases slot <;> rfl
  · intro h
    have hfee := h .mintFee
    have hlow := h .minCollateralRatio
    have hreward := h .rewardCollateralRatio
    have hdecimals := h .feeDigitsCorrection
    obtain ⟨_, rfl⟩ := Option.isSome_iff_exists.1 hfee
    obtain ⟨_, rfl⟩ := Option.isSome_iff_exists.1 hlow
    obtain ⟨_, rfl⟩ := Option.isSome_iff_exists.1 hreward
    obtain ⟨_, rfl⟩ := Option.isSome_iff_exists.1 hdecimals
    exact ⟨_, rfl⟩

theorem build_all (addresses : Addresses) (value : Slot → Nat) :
    ((new addresses).applyAll (Slot.all.map fun slot => (slot, value slot))).build = .ok (.of addresses value) := rfl

end Draft

end Defi

end ChainBridge
