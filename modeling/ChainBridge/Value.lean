/-
What the node's answers are decoded to: an amount of any size, or a count of 64 bits.
-/
import ChainBridge.Footprint

namespace ChainBridge

inductive Value where
  | amount (n : Nat)
  | count (n : UInt64)
deriving DecidableEq, Repr

namespace Value

/-- a value takes what its number takes -/
instance : Footprint Value where
  bytes
    | .amount n => Footprint.bytes n
    | .count n => Footprint.bytes n
  optional := 24

end Value

end ChainBridge
