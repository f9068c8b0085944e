/-
What a draft holds after any sequence of values, and the settings that it becomes.

A value is noted for its own slot and for no other (`noted?_apply`), in place of the one before, so a draft has noted
for a slot what came last for it (`noted?_applyAll`), and values of different slots may change places (`apply_comm`).
`build` looks at nothing else: it succeeds with what was noted (`build_ok_iff`), or fails with the first slot in
declared order for which nothing was (`build_error_iff`).
-/
import Mathlib
import ChainBridge.Proofs.Defi.Slots

namespace ChainBridge.Defi

/-- the value that came last for a slot -/
def latest? (values : List (Slot × Nat)) (slot : Slot) : Option Nat :=
  (values.reverse.find? fun v => decide (v.1 = slot)).map Prod.snd

theorem latest?_snoc (values : List (Slot × Nat)) (v : Slot × Nat) (slot : Slot) :
    latest? (values ++ [v]) slot = if v.1 = slot then some v.2 else latest? values slot := by
  rw [latest?, List.reverse_append, List.reverse_singleton, List.singleton_append, List.find?_cons]
  by_cases h : v.1 = slot
  · simp [h]
  · simp [h, latest?]

/-- what is noted when a slot has a value: of the scale factor only how many places it stands for -/
def Slot.note : Slot → Nat → Nat
  | .feeDigitsCorrection, value => decimalPlaces value
  | _, value => value

namespace Draft

/-- what was noted for a slot -/
def noted? (d : Draft) : Slot → Option Nat
  | .mintFee => d.mintFee
  | .minCollateralRatio => d.minCollateralRatio
  | .rewardCollateralRatio => d.rewardCollateralRatio
  | .feeDigitsCorrection => d.decimals

/-! ## Values -/

/-- a value is noted for its slot, and the other slots keep what they have -/
theorem noted?_apply (d : Draft) (slot other : Slot) (value : Nat) :
    (d.apply slot value).noted? other = if slot = other then some (slot.note value) else d.noted? other := by
  cases slot <;> cases other <;> rfl

theorem apply_addresses (d : Draft) (slot : Slot) (value : Nat) : (d.apply slot value).addresses = d.addresses := by
  cases slot <;> rfl

theorem applyAll_snoc (d : Draft) (values : List (Slot × Nat)) (v : Slot × Nat) :
    d.applyAll (values ++ [v]) = (d.applyAll values).apply v.1 v.2 :=
  List.foldl_append

theorem applyAll_append (d : Draft) (values more : List (Slot × Nat)) :
    d.applyAll (values ++ more) = (d.applyAll values).applyAll more :=
  List.foldl_append

theorem applyAll_addresses (d : Draft) (values : List (Slot × Nat)) : (d.applyAll values).addresses = d.addresses := by
  induction values using List.reverseRecOn with
  | nil => rfl
  | append_singleton values v ih => rw [applyAll_snoc, apply_addresses, ih]

/-- what came last for a slot is noted, or what there was before any value came -/
theorem noted?_applyAll (d : Draft) (values : List (Slot × Nat)) (slot : Slot) :
    (d.applyAll values).noted? slot = ((latest? values slot).map slot.note).or (d.noted? slot) := by
  induction values using List.reverseRecOn with
  | nil => rfl
  | append_singleton values v ih =>
    rw [applyAll_snoc, noted?_apply, latest?_snoc]
    by_cases h : v.1 = slot
    · rw [if_pos h, if_pos h, h, Option.map_some, Option.some_or]
    · rw [if_neg h, if_neg h, ih]

theorem noted?_new (addresses : Addresses) (values : List (Slot × Nat)) (slot : Slot) :
    ((new addresses).applyAll values).noted? slot = (latest? values slot).map slot.note := by
  have hnone : (new addresses).noted? slot = none := by cases slot <;> rfl
  rw [noted?_applyAll, hnone, Option.or_none]

/-- an amount is noted as it came -/
theorem noted?_amount (addresses : Addresses) (values : List (Slot × Nat)) {slot : Slot}
    (h : slot ≠ .feeDigitsCorrection) : ((new addresses).applyAll values).noted? slot = latest? values slot := by
  have hsame : slot.note = id := by
    cases slot with
    | feeDigitsCorrection => exact absurd rfl h
    | _ => rfl
  rw [noted?_new, hsame, Option.map_id_fun, id]

/-- a draft is its addresses and what it has noted -/
theorem eq_of_noted? {d d' : Draft} (haddresses : d.addresses = d'.addresses)
    (hnoted : ∀ slot, d.noted? slot = d'.noted? slot) : d = d' := by
  obtain ⟨addresses, fee, low, reward, decimals⟩ := d
  obtain ⟨addresses', fee', low', reward', decimals'⟩ := d'
  rw [mk.injEq]
  exact ⟨haddresses, hnoted .mintFee, hnoted .minCollateralRatio, hnoted .rewardCollateralRatio,
    hnoted .feeDigitsCorrection⟩

/-- values of different slots may come in either order -/
theorem apply_comm (d : Draft) {slot other : Slot} (h : slot ≠ other) (value value' : Nat) :
    (d.apply slot value).apply other value' = (d.apply other value').apply slot value := by
  refine eq_of_noted? (by simp only [apply_addresses]) fun third => ?_
  simp only [noted?_apply]
  split_ifs with hother hslot
  · exact absurd (hslot.trans hother.symm) h
  · rfl
  · rfl
  · rfl

theorem applyAll_swap (d : Draft) {v w : Slot × Nat} (h : v.1 ≠ w.1) (before after : List (Slot × Nat)) :
    d.applyAll (before ++ w :: v :: after) = d.applyAll (before ++ v :: w :: after) := by
  rw [applyAll_append, applyAll_append]
  exact congrArg (·.applyAll after) ((d.applyAll before).apply_comm h.symm w.2 v.2)

/-! ## Settings -/

theorem build_ok_iff {d : Draft} {settings : Settings} : d.build = .ok settings ↔
    settings.addresses = d.addresses ∧ d.noted? .mintFee = some settings.mintFee ∧
    d.noted? .minCollateralRatio = some settings.minCollateralRatio ∧
    d.noted? .rewardCollateralRatio = some settings.rewardCollateralRatio ∧
    d.noted? .feeDigitsCorrection = some settings.decimals := by
  obtain ⟨addresses, fee, low, reward, decimals⟩ := d
  obtain ⟨addresses', fee', low', reward', decimals'⟩ := settings
  simp only [noted?]
  cases fee with
  | none => simp [build]
  | some fee =>
    cases low with
    | none => simp [build]
    | some low =>
      cases reward with
      | none => simp [build]
      | some reward =>
        cases decimals with
        | none => simp [build]
        | some decimals => simp [build, eq_comm]

/-- what is reported is the first slot for which nothing was noted -/
theorem build_error_iff {d : Draft} {slot : Slot} :
    d.build = .error slot ↔ Slot.all.find? (fun slot => !d.knows slot) = some slot := by
  obtain ⟨addresses, fee, low, reward, decimals⟩ := d
  cases fee with
  | none => simp [build, Slot.all, knows]
  | some fee =>
    cases low with
    | none => simp [build, Slot.all, knows]
    | some low =>
      cases reward with
      | none => simp [build, Slot.all, knows]
      | some reward =>
        cases decimals with
        | none => simp [build, Slot.all, knows]
        | some decimals => simp [build, Slot.all, knows]

end Draft

/-- **The last value of each slot counts.** After any values in any order, a draft becomes settings if and only if every
slot has had one. Then they hold the addresses that the draft began with, for the fee and for both ratios the value that
came last, and as decimals the places of the scale factor that came last. Otherwise the slot that is reported is the
first in declared order that has had none. Two values of different slots that follow one another may change places. -/
theorem builds_latest (addresses : Addresses) (values : List (Slot × Nat)) :
    let built := ((Draft.new addresses).applyAll values).build
    ((∃ settings, built = .ok settings) ↔ ∀ slot ∈ Slot.all, slot ∈ values.map Prod.fst) ∧
    (∀ settings, built = .ok settings → settings.addresses = addresses ∧
      latest? values .mintFee = some settings.mintFee ∧
      latest? values .minCollateralRatio = some settings.minCollateralRatio ∧
      latest? values .rewardCollateralRatio = some settings.rewardCollateralRatio ∧
      ∃ scale, latest? values .feeDigitsCorrection = some scale ∧ settings.decimals = decimalPlaces scale) ∧
    (∀ slot, built = .error slot ↔ Slot.all.find? (fun slot => decide (slot ∉ values.map Prod.fst)) = some slot) ∧
    ∀ before v w after, values = before ++ v :: w :: after → v.1 ≠ w.1 →
      ((Draft.new addresses).applyAll (before ++ w :: v :: after)).build = built := by
  have hknows : ∀ slot, ((Draft.new addresses).applyAll values).knows slot = decide (slot ∈ values.map Prod.fst) := by
    intro slot
    have hnone : (Draft.new addresses).knows slot = false := by cases slot <;> rfl
    rw [Draft.knows_applyAll, hnone, Bool.or_false]
  refine ⟨?_, fun settings hbuilt => ?_, fun slot => ?_, fun before v w after hvalues hne => ?_⟩
  · simp only [Draft.build_isOk_iff, hknows, decide_eq_true_eq]
    exact ⟨fun h slot _ => h slot, fun h slot => h slot slot.mem_all⟩
  · obtain ⟨haddresses, hfee, hlow, hreward, hdecimals⟩ := Draft.build_ok_iff.1 hbuilt
    rw [Draft.noted?_amount _ _ (by decide)] at hfee hlow hreward
    rw [Draft.noted?_new] at hdecimals
    obtain ⟨scale, hscale, hplaces⟩ := Option.map_eq_some_iff.1 hdecimals
    exact ⟨haddresses.trans ((Draft.new addresses).applyAll_addresses values), hfee, hlow, hreward, scale, hscale,
      hplaces.symm⟩
  · rw [Draft.build_error_iff]
    simp only [hknows, decide_not]
  · rw [hvalues, Draft.applyAll_swap _ hne]

/-- values of every slot, two of the fee and two of the scale factor -/
def comeTwice : List (Slot × Nat) :=
  [(.feeDigitsCorrection, 100), (.mintFee, 1), (.rewardCollateralRatio, 50000), (.mintFee, 25),
    (.minCollateralRatio, 30000), (.feeDigitsCorrection, 10000)]

/-- the later fee counts and the later scale factor, also when the later fee comes before the ratio in front of it -/
theorem builds_latest_twice :
    let draft : Draft := .new ⟨.zero, .zero, .zero, .zero, .zero, .zero, .zero⟩
    let swapped : List (Slot × Nat) :=
      [(.feeDigitsCorrection, 100), (.mintFee, 1), (.mintFee, 25), (.rewardCollateralRatio, 50000),
        (.minCollateralRatio, 30000), (.feeDigitsCorrection, 10000)]
    (∀ slot ∈ Slot.all, slot ∈ comeTwice.map Prod.fst) ∧
    (∃ settings, (draft.applyAll comeTwice).build = .ok settings ∧ settings.mintFee = 25 ∧ settings.decimals = 4) ∧
    (draft.applyAll swapped).build = (draft.applyAll comeTwice).build := by
  intro draft swapped
  obtain ⟨hbuilds, hfields, -, hswap⟩ := builds_latest ⟨.zero, .zero, .zero, .zero, .zero, .zero, .zero⟩ comeTwice
  have hall : ∀ slot ∈ Slot.all, slot ∈ comeTwice.map Prod.fst := by decide
  refine ⟨hall, ?_, hswap [(.feeDigitsCorrection, 100), (.mintFee, 1)] (.rewardCollateralRatio, 50000) (.mintFee, 25)
    [(.minCollateralRatio, 30000), (.feeDigitsCorrection, 10000)] rfl (by decide)⟩
  obtain ⟨settings, hbuilt⟩ := hbuilds.2 hall
  obtain ⟨-, hfee, -, -, scale, hscale, hdecimals⟩ := hfields settings hbuilt
  have hlatest : latest? comeTwice .mintFee = some 25 ∧ latest? comeTwice .feeDigitsCorrection = some 10000 := by decide
  have hplaces : decimalPlaces 10000 = 4 := by cbv
  rw [hlatest.1, Option.some_inj] at hfee
  rw [hlatest.2, Option.some_inj] at hscale
  exact ⟨settings, hbuilt, hfee.symm, by rw [hdecimals, ← hscale, hplaces]⟩

end ChainBridge.Defi
