/-
A token that answered the probe, and what can be read from it.

Reading goes through the repository every time, so a handle never holds a number.
-/
import ChainBridge.Repository.Operation

namespace ChainBridge.Repository

inductive Read where
  | totalSupply
  | balanceOf (owner : Address)
  | allowance (owner : Address) (spender : Option Address)
  | logo
deriving DecidableEq, Repr

/-- the operation on the repository that a read of a token is -/
def Read.operation (t : Address) : Read → Operation
  | .totalSupply => .totalSupply t
  | .balanceOf owner => .balanceOf t owner
  | .allowance owner spender => .allowance t owner spender
  | .logo => .logo t

/-- an operation, and reads from the token that it came to, one after the other -/
def Operation.thenRead (o : Options) (op : Operation) (reads : List Read) :
    Task (Except Error Answer × List (Except Error Answer)) :=
  (op.task o).bind fun answer =>
    match answer with
    | .ok (.handle t) => (Cache.Task.inTurn (reads.map fun r => (r.operation t).task o)).map (answer, ·)
    | _ => .done (answer, [])

/-- how a handle is shown -/
def handleDebug (t : Address) : String := "Erc20Token \x7b address: " ++ t.display ++ ", .. \x7d"

/-- how the side of the repository that talks to the node is shown -/
def adapterDebug (ns : String) : String := "NodeAdapter \x7b namespace: " ++ Text.Quoted.text ns ++ ", .. \x7d"

end ChainBridge.Repository
