/-
The block that a state query is about.
-/
import ChainBridge.Quantity

namespace ChainBridge

inductive BlockTag where
  | latest
  | earliest
  | pending
  | safe
  | finalized
  | number (n : UInt64)
deriving DecidableEq, Repr

/-- how the block is named in a request -/
def BlockTag.param : BlockTag → String
  | .latest => "latest"
  | .earliest => "earliest"
  | .pending => "pending"
  | .safe => "safe"
  | .finalized => "finalized"
  | .number n => Quantity.encodeCount n

end ChainBridge
