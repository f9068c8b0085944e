/-
How many bytes a value is reckoned to take, which is what the size budget of a cache counts.

A number of 64 bits takes 8 and an address 20. A text takes a record of 24 and its UTF-8 bytes, an amount a record of
24 and eight bytes for every 64 bits it has. An optional value takes its own record and what is in it.
-/
import ChainBridge.Address

namespace ChainBridge

class Footprint (α : Type) where
  bytes : α → Nat
  /-- the record of an optional value -/
  optional : Nat

namespace Footprint

/-- what an entry of a cache takes beyond its key and its value -/
def overhead : Nat := 96

/-- how many groups of 64 bits a number has -/
def words (n : Nat) : Nat := if n = 0 then 0 else n.log2 / 64 + 1

instance : Footprint UInt64 := ⟨fun _ => 8, 16⟩

instance : Footprint Address := ⟨fun _ => 20, 21⟩

instance : Footprint String := ⟨fun s => 24 + s.utf8ByteSize, 24⟩

/-- amounts have any number of bits -/
instance : Footprint Nat := ⟨fun n => 24 + 8 * words n, 24⟩

instance {α : Type} [Footprint α] : Footprint (Option α) :=
  ⟨fun o => optional α + (o.map bytes).getD 0, optional α⟩

end Footprint

end ChainBridge
