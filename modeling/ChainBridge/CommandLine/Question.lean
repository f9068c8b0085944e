/-
Questions to the node and their answers, as they are printed.

An answer is an object: what was asked about, and the numbers as hex quantities. A question that consists of several
operations ends with the first one that fails.
-/
import ChainBridge.CommandLine.Arguments
import ChainBridge.Repository.Operation

namespace ChainBridge.CommandLine

open Repository

namespace Question

/-- what an operation of a question came to -/
def answerJson : Answer → Json
  | .amount n => .ofAmount n
  | .count n => .text (Quantity.encodeCount n)
  | .handle t => .text t.display
  | .noToken => .null
  | .url s => .text s
  | .settings s => s.toJson

/-- goes on with the answer to an operation, unless that failed -/
def ask (o : Options) (op : Operation) (next : Json → Repository.Task (Except Error Json)) :
    Repository.Task (Except Error Json) :=
  (op.task o).bind fun
    | .ok answer => next (answerJson answer)
    | .error e => .done (.error e)

/-- ends with an object -/
def conclude (members : List (String × Json)) : Repository.Task (Except Error Json) := .done (.ok (.object members))

def address (a : Address) : Json := .text a.display

def task (o : Options) : Question → Repository.Task (Except Error Json)
  | .balance account => ask o (.balance account) fun n => conclude [("address", address account), ("balance", n)]
  | .nonce account => ask o (.nonce account) fun n => conclude [("address", address account), ("nonce", n)]
  | .token t owner =>
    ask o (.token t) fun _ => ask o (.totalSupply t) fun supply =>
      let members := [("address", address t), ("totalSupply", supply), ("logoUrl", .text (o.logos.logoFor t))]
      match owner with
      | none => conclude members
      | some holder => ask o (.balanceOf t holder) fun n =>
        conclude (members ++ [("owner", address holder), ("balance", n)])
  | .allowance t owner spender =>
    ask o (.allowance t owner spender) fun n => conclude [
      ("token", address t), ("owner", address owner), ("spender", address (spender.getD o.defi.fmintContract)),
      ("allowance", n)]
  | .defi => ask o .defi fun settings => .done (.ok settings)

end Question

end ChainBridge.CommandLine
