/-
Configuration as JSON.

A section is an object or a list of its fields in order. A value of the wrong type is refused, null among them; nothing
is converted.
-/
import ChainBridge.Config.Sections

namespace ChainBridge.Config

/-! ## Reading -/

/-- the fields of a section, by name or by place; more items than fields are refused -/
def jsonFields? (names : List String) : Json → Option (List (Option Json))
  | .object members => some (Reading.named names members)
  | .list items => if items.length ≤ names.length then some (Reading.placed names items) else none
  | _ => none

def jsonWord? : Json → Option UInt64
  | .integer i => if 0 ≤ i ∧ i ≤ largestWord then some (UInt64.ofNat i.toNat) else none
  | _ => none

def jsonReading : Reading := ⟨jsonFields?, Json.text?, jsonWord?⟩

def ofJson? (v : Json) : Option Config := read? jsonReading v

/-! ## Writing -/

def word (n : UInt64) : Json := .natural n.toNat

def Node.toJson (n : Node) : Json :=
  .object (Node.names.zip [.text n.url, word n.timeoutSeconds, word n.concurrentLimit, .text n.methodNamespace])

def Cache.toJson (c : Cache) : Json :=
  .object (Cache.names.zip [word c.ttlSeconds, word c.maxSizeMb, word c.sweepIntervalSeconds])

def Defi.texts (d : Defi) : List String := [
  d.fmintContract, d.fmintAddressProvider, d.fmintTokenRegistry, d.fmintRewardDistribution, d.fmintCollateralPool,
  d.fmintDebtPool, d.priceOracleAggregate]

def Defi.toJson (d : Defi) : Json := .object (Defi.names.zip (d.texts.map .text))

def Tokens.toJson (t : Tokens) : Json :=
  .object (Tokens.names.zip [.ofMembers (t.logos.map fun l => (l.1, .text l.2)), .text t.defaultLogo])

def Logging.toJson (l : Logging) : Json := .object (Logging.names.zip [.text l.level, .text l.format])

def toJson (c : Config) : Json :=
  .object (names.zip [c.node.toJson, c.cache.toJson, c.defi.toJson, c.tokens.toJson, c.logging.toJson])

end ChainBridge.Config
