/-
Keys and values of several types in one cache.

Items of different types are different keys, whatever they show.
-/
import ChainBridge.Footprint
import ChainBridge.Text.Quoted

namespace ChainBridge.Cache

inductive Item where
  | count (n : UInt64)
  | text (s : String)
  | address (a : Address)
  | amount (n : Nat)
  | optionalCount (n : Option UInt64)
  | optionalText (s : Option String)
  | optionalAddress (a : Option Address)
  | optionalAmount (n : Option Nat)
deriving DecidableEq

namespace Item

instance : Footprint Item where
  bytes
    | .count n => Footprint.bytes n
    | .text s => Footprint.bytes s
    | .address a => Footprint.bytes a
    | .amount n => Footprint.bytes n
    | .optionalCount n => Footprint.bytes n
    | .optionalText s => Footprint.bytes s
    | .optionalAddress a => Footprint.bytes a
    | .optionalAmount n => Footprint.bytes n
  optional := 24

/-- how an optional item is shown in messages -/
def debugOption : Option String → String
  | none => "None"
  | some s => "Some(" ++ s ++ ")"

/-- how an item is shown in messages -/
def debug : Item → String
  | .count n => toString n.toNat
  | .text s => Text.Quoted.text s
  | .address a => a.display
  | .amount n => toString n
  | .optionalCount n => debugOption (n.map fun n => toString n.toNat)
  | .optionalText s => debugOption (s.map Text.Quoted.text)
  | .optionalAddress a => debugOption (a.map Address.display)
  | .optionalAmount n => debugOption (n.map toString)

end Item

end ChainBridge.Cache
