/-
The four numbers that the minter contract keeps about lending, in the order in which failures are reported.
-/
import ChainBridge.Call

namespace ChainBridge.Defi

inductive Slot where
  | mintFee
  | minCollateralRatio
  | rewardCollateralRatio
  /-- a power of ten; how many places the other three have -/
  | feeDigitsCorrection
deriving DecidableEq, Repr

namespace Slot

/-- every slot, in declared order -/
def all : List Slot := [.mintFee, .minCollateralRatio, .rewardCollateralRatio, .feeDigitsCorrection]

/-- the name in messages -/
def name : Slot → String
  | .mintFee => "mint_fee_4"
  | .minCollateralRatio => "min_collateral_ratio_4"
  | .rewardCollateralRatio => "reward_collateral_ratio_4"
  | .feeDigitsCorrection => "fee_digits_correction"

/-- the name in JSON, which sets no underscore before a digit -/
def tag : Slot → String
  | .mintFee => "mint_fee4"
  | .minCollateralRatio => "min_collateral_ratio4"
  | .rewardCollateralRatio => "reward_collateral_ratio4"
  | .feeDigitsCorrection => "fee_digits_correction"

/-- the name in the debug form of a key or an error -/
def label : Slot → String
  | .mintFee => "MintFee4"
  | .minCollateralRatio => "MinCollateralRatio4"
  | .rewardCollateralRatio => "RewardCollateralRatio4"
  | .feeDigitsCorrection => "FeeDigitsCorrection"

/-- the call that answers with the slot's value -/
def call : Slot → Call
  | .mintFee => .mintFee4
  | .minCollateralRatio => .minCollateralRatio4
  | .rewardCollateralRatio => .rewardCollateralRatio4
  | .feeDigitsCorrection => .feeDigitsCorrection

theorem mem_all (s : Slot) : s ∈ all := by cases s <;> simp [all]

end Slot

end ChainBridge.Defi
