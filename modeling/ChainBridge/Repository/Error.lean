/-
What an operation on the repository can end with instead of an answer.

Failures of the node pass through unchanged. The only conversion is that of a probe which the node answered, but not as
a token does.
-/
import ChainBridge.Cache.Machine
import ChainBridge.Defi.Slot
import ChainBridge.Repository.Key
import ChainBridge.Rpc.Error
import ChainBridge.Value

namespace ChainBridge.Repository

inductive Error where
  | rpc (e : Rpc.Error)
  /-- the address did not answer as a token -/
  | notFound (token : Address)
  /-- a slot of the lending settings failed -/
  | aggregation (slot : Defi.Slot) (source : Error)
  | cache (e : Cache.Error)
deriving DecidableEq, Repr

namespace Error

def message : Error → String
  | .rpc e => e.message
  | .notFound token => "no ERC20 token at " ++ token.display
  | .aggregation slot source => "failed to load DeFi setting " ++ slot.name ++ ": " ++ source.message
  | .cache e => e.message

def debug : Error → String
  | .rpc e => "Rpc(" ++ e.debug ++ ")"
  | .notFound token => "NotFound(" ++ token.display ++ ")"
  | .aggregation slot source =>
    "Aggregation \x7b slot: " ++ slot.label ++ ", source: " ++ source.debug ++ " \x7d"
  | .cache e => "Cache(" ++ e.debug ++ ")"

def isNotFound : Error → Bool
  | .notFound _ => true
  | _ => false

/-- the kind of the node's failure behind an error, if there is one -/
def rpcKind? : Error → Option Rpc.ErrorKind
  | .rpc e => some e.kind
  | .aggregation _ source => source.rpcKind?
  | _ => none

end Error

/-- what a caller came away with, as the repository reports it -/
def ofSettled (key : Key) : Cache.Settled Value Rpc.Error → Except Error Value
  | .value v => .ok v
  | .failed e => .error (.rpc e)
  | .abandoned => .error (.cache (.fetchAbandoned key.debug))

end ChainBridge.Repository
