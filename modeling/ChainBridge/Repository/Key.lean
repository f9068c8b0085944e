/-
The keys under which answers are kept: the address that was asked about, what was asked, and a second address if the
question has one.

Of a balance in a token the second address is the owner. Of an allowance it is the owner too, and the spender belongs to
the field.
-/
import ChainBridge.Defi.Slot
import ChainBridge.Footprint

namespace ChainBridge.Repository

inductive Field where
  | accountBalance
  | accountNonce
  | totalSupply
  | balanceOf
  | allowance (spender : Address)
  | defi (slot : Defi.Slot)
deriving DecidableEq, Repr

structure Key where
  entity : Address
  field : Field
  secondary : Option Address
deriving DecidableEq, Repr

/-- every key takes the same room -/
instance : Footprint Key := ⟨fun _ => 62, 62⟩

namespace Field

def debug : Field → String
  | .accountBalance => "AccountBalance"
  | .accountNonce => "AccountNonce"
  | .totalSupply => "Erc20TotalSupply"
  | .balanceOf => "Erc20BalanceOf"
  | .allowance spender => "Erc20Allowance \x7b spender: " ++ spender.display ++ " \x7d"
  | .defi slot => "Defi(" ++ slot.label ++ ")"

end Field

/-- how a key is shown in messages -/
def Key.debug (k : Key) : String :=
  "FieldKey \x7b entity: " ++ k.entity.display ++ ", field: " ++ k.field.debug ++ ", secondary: " ++
    (match k.secondary with
      | none => "None"
      | some a => "Some(" ++ a.display ++ ")") ++ " \x7d"

end ChainBridge.Repository
