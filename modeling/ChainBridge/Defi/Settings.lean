/-
The lending settings: seven configured addresses and what the four slots of the minter say.

A `Draft` collects slot values one by one and becomes settings only when it has all four; otherwise `build` names the
first slot, in declared order, that is missing. The number of decimals is not read but derived from the scale factor.
-/
import ChainBridge.Defi.Slot
import ChainBridge.Json.Address
import ChainBridge.Json.Amount

namespace ChainBridge.Defi

/-- the contracts that lending consists of -/
structure Addresses where
  fmintContract : Address
  fmintAddressProvider : Address
  fmintTokenRegistry : Address
  fmintRewardDistribution : Address
  fmintCollateralPool : Address
  fmintDebtPool : Address
  priceOracleAggregate : Address
deriving DecidableEq, Repr

/-- the minter, fee and ratios with `decimals` places each -/
structure Settings where
  addresses : Addresses
  mintFee : Nat
  minCollateralRatio : Nat
  rewardCollateralRatio : Nat
  decimals : Nat
deriving DecidableEq, Repr

/-! ## Decimal places -/

/-- how many places a scale factor stands for: the divisions by ten until zero or one is left -/
def decimalPlaces (scale : Nat) : Nat := if scale ≤ 1 then 0 else decimalPlaces (scale / 10) + 1
termination_by scale

theorem decimalPlaces_of_le_one {n : Nat} (h : n ≤ 1) : decimalPlaces n = 0 := by rw [decimalPlaces]; simp [h]

theorem decimalPlaces_of_one_lt {n : Nat} (h : 1 < n) : decimalPlaces n = decimalPlaces (n / 10) + 1 := by
  rw [decimalPlaces]; simp [show ¬n ≤ 1 by omega]

/-! ## Collecting slot values -/

/-- settings in the making -/
structure Draft where
  addresses : Addresses
  mintFee : Option Nat
  minCollateralRatio : Option Nat
  rewardCollateralRatio : Option Nat
  decimals : Option Nat
deriving DecidableEq, Repr

namespace Draft

def new (addresses : Addresses) : Draft := ⟨addresses, none, none, none, none⟩

/-- notes the value of a slot, in place of an earlier one -/
def apply (d : Draft) (slot : Slot) (value : Nat) : Draft :=
  match slot with
  | .mintFee => { d with mintFee := some value }
  | .minCollateralRatio => { d with minCollateralRatio := some value }
  | .rewardCollateralRatio => { d with rewardCollateralRatio := some value }
  | .feeDigitsCorrection => { d with decimals := some (decimalPlaces value) }

def applyAll (d : Draft) (values : List (Slot × Nat)) : Draft := values.foldl (fun d v => d.apply v.1 v.2) d

/-- the settings, or the first slot in declared order that has no value -/
def build (d : Draft) : Except Slot Settings :=
  match d.mintFee, d.minCollateralRatio, d.rewardCollateralRatio, d.decimals with
  | none, _, _, _ => .error .mintFee
  | _, none, _, _ => .error .minCollateralRatio
  | _, _, none, _ => .error .rewardCollateralRatio
  | _, _, _, none => .error .feeDigitsCorrection
  | some fee, some low, some reward, some decimals => .ok ⟨d.addresses, fee, low, reward, decimals⟩

end Draft

/-! ## JSON -/

/-- the members that addresses put into an object -/
def Addresses.members (a : Addresses) : List (String × Json) := [
  ("fmintContract", .ofAddress a.fmintContract),
  ("fmintAddressProvider", .ofAddress a.fmintAddressProvider),
  ("fmintTokenRegistry", .ofAddress a.fmintTokenRegistry),
  ("fmintRewardDistribution", .ofAddress a.fmintRewardDistribution),
  ("fmintCollateralPool", .ofAddress a.fmintCollateralPool),
  ("fmintDebtPool", .ofAddress a.fmintDebtPool),
  ("priceOracleAggregate", .ofAddress a.priceOracleAggregate)]

def Addresses.toJson (a : Addresses) : Json := .object a.members

/-- the addresses stand beside the values, which are quantities -/
def Settings.toJson (s : Settings) : Json :=
  .object (s.addresses.members ++ [
    ("mintFee4", .ofAmount s.mintFee),
    ("minCollateralRatio4", .ofAmount s.minCollateralRatio),
    ("rewardCollateralRatio4", .ofAmount s.rewardCollateralRatio),
    ("decimals", .natural s.decimals)])

end ChainBridge.Defi
