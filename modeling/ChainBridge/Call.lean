/-
Read-only contract calls that return one unsigned word.

The call data is the selector (the first four bytes of the hash of the signature) and then each address argument as a
word of 32 bytes; `allowance` takes the owner first and the spender second.
-/
import ChainBridge.Address
import ChainBridge.Keccak

namespace ChainBridge

/-- the four bytes that name a function -/
def selector (signature : String) : List UInt8 := (Keccak.digest (Text.Utf8.encode signature.toList)).take 4

inductive Call where
  | totalSupply
  | balanceOf (owner : Address)
  | allowance (owner spender : Address)
  | mintFee4
  | minCollateralRatio4
  | rewardCollateralRatio4
  | feeDigitsCorrection
deriving DecidableEq, Repr

namespace Call

def signature : Call → String
  | .totalSupply => "totalSupply()"
  | .balanceOf _ => "balanceOf(address)"
  | .allowance .. => "allowance(address,address)"
  | .mintFee4 => "getFMintFee4dec()"
  | .minCollateralRatio4 => "getCollateralLowestDebtRatio4dec()"
  | .rewardCollateralRatio4 => "getRewardEligibilityRatio4dec()"
  | .feeDigitsCorrection => "fMintFeeDigitsCorrection()"

def arguments : Call → List Address
  | .balanceOf owner => [owner]
  | .allowance owner spender => [owner, spender]
  | _ => []

/-- the call data -/
def encode (c : Call) : List UInt8 := selector c.signature ++ c.arguments.flatMap Address.toWord

/-- the call data as a request carries it -/
def data (c : Call) : String := String.ofList ('0' :: 'x' :: Text.Hex.encode c.encode)

end Call

end ChainBridge
