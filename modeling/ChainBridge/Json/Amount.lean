/-
Amounts in JSON: a text that is a quantity.
-/
import ChainBridge.Json.Basic
import ChainBridge.Quantity

namespace ChainBridge.Json

/-- why a value is no amount -/
inductive AmountFault where
  | notText
  | notQuantity (fault : QuantityFault)
deriving DecidableEq, Repr

def ofAmount (n : Nat) : Json := .text (Quantity.encodeAmount n)

def toAmount (v : Json) : Except AmountFault Nat :=
  match v with
  | .text s => (Quantity.decodeAmount s).mapError .notQuantity
  | _ => .error .notText

end ChainBridge.Json
