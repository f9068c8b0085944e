/-
Addresses in JSON: a text that is an address.
-/
import ChainBridge.Address
import ChainBridge.Json.Basic

namespace ChainBridge.Json

/-- why a value is no address -/
inductive AddressFault where
  | notText
  | notAddress (fault : ChainBridge.AddressFault)
deriving DecidableEq, Repr

def ofAddress (a : Address) : Json := .text a.display

def toAddress (v : Json) : Except AddressFault Address :=
  match v with
  | .text s => (Address.parse s).mapError .notAddress
  | _ => .error .notText

end ChainBridge.Json
