/-
Questions to the node, each of them one request.

A query has a method, whose name starts with the node's namespace, and positional parameters. The answer has to be a
text of the form that the query expects; anything else is a decoding failure. What is counted is how the request ended,
whether or not the answer reads.
-/
import ChainBridge.BlockTag
import ChainBridge.Call
import ChainBridge.Json.Printer
import ChainBridge.Metrics
import ChainBridge.Value

namespace ChainBridge.Rpc

/-- what goes over the wire -/
structure Request where
  method : String
  params : Json

/-- the namespace that nodes of the network use unless told otherwise -/
def defaultNamespace : String := "ftm"

inductive Query where
  | balance (account : Address) (block : BlockTag)
  | transactionCount (account : Address) (block : BlockTag)
  /-- a read-only call, of which the first word is the answer -/
  | call (contract : Address) (call : Call) (block : BlockTag)
deriving DecidableEq, Repr

namespace Query

def name : Query → String
  | .balance .. => "getBalance"
  | .transactionCount .. => "getTransactionCount"
  | .call .. => "call"

def method (ns : String) (q : Query) : String := ns ++ "_" ++ q.name

def params : Query → Json
  | .balance account block => .list [.text account.display, .text block.param]
  | .transactionCount account block => .list [.text account.display, .text block.param]
  | .call contract c block =>
    .list [.object [("data", .text c.data), ("to", .text contract.display)], .text block.param]

def request (ns : String) (q : Query) : Request := ⟨q.method ns, q.params⟩

/-- the text of an answer -/
def expectText (method : String) : Json → Except Error String
  | .text s => .ok s
  | v => .error (.decode (method ++ " result is not a string: " ++ v.compact))

/-- reads the text of an answer -/
def decode (q : Query) (text : String) : Except QuantityFault Value :=
  match q with
  | .balance .. => (Quantity.decodeAmount text).map .amount
  | .transactionCount .. => (Quantity.decodeCount text).map .count
  | .call .. => (Quantity.decodeWord text).map .amount

/-- what a request that ended well or badly comes to -/
def conclude (ns : String) (q : Query) (reply : Except Error Json) : Except Error Value := do
  let text ← expectText (q.method ns) (← reply)
  match q.decode text with
  | .ok v => .ok v
  | .error fault => .error (.ofQuantity fault)

/-- the counter that a request which ended goes to -/
def counter (ns : String) (q : Query) (reply : Except Error Json) : Metrics.Counter :=
  .rpcCalls (q.method ns) (match reply with
    | .ok _ => none
    | .error e => some e.kind)

end Query

end ChainBridge.Rpc
