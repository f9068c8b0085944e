/-
What can be asked of the repository.

Each operation is a batch of loads, one for each number that it needs, and a conclusion from what they come to. A load
names the key under which the number is kept and the query that fetches it; both are made from the same arguments. The
token operations are the same load as the total supply: whatever the node answers decides whether there is a token.
-/
import ChainBridge.Cache.Task
import ChainBridge.Defi.Aggregate
import ChainBridge.Defi.Settings
import ChainBridge.Repository.Error
import ChainBridge.Repository.Logos
import ChainBridge.Rpc.Query

namespace ChainBridge.Repository

/-- what the repository knows from configuration -/
structure Options where
  defi : Defi.Addresses
  logos : Logos
  /-- how long answers live, if not as long as the cache says -/
  ttl : Option Nat
deriving DecidableEq, Repr

/-- what a repository is set up with: the names of the node's methods begin with `ns` -/
structure Setting where
  ns : String
  setup : Cache.Setup
  options : Options
deriving DecidableEq, Repr

inductive Operation where
  | balance (account : Address)
  | nonce (account : Address)
  | totalSupply (token : Address)
  | balanceOf (token owner : Address)
  /-- without a spender, what the minter may spend -/
  | allowance (token owner : Address) (spender : Option Address)
  /-- probes a token; failure to answer as one is an error -/
  | token (token : Address)
  /-- probes a token; failure to answer as one is an answer -/
  | findToken (token : Address)
  | logo (token : Address)
  | defi
deriving DecidableEq, Repr

inductive Answer where
  | amount (n : Nat)
  | count (n : UInt64)
  /-- a token that can be asked further -/
  | handle (token : Address)
  | noToken
  | url (s : String)
  | settings (s : Defi.Settings)
deriving DecidableEq, Repr

abbrev Load := Cache.Load Key Rpc.Query

abbrev Task := Cache.Task Key Value Rpc.Error Rpc.Query

/-! ## Loads -/

/-- a contract call under a key that belongs to the contract -/
def callLoad (o : Options) (contract : Address) (field : Field) (secondary : Option Address) (call : Call) : Load :=
  ⟨⟨contract, field, secondary⟩, o.ttl, .call contract call .latest⟩

def supplyLoad (o : Options) (token : Address) : Load := callLoad o token .totalSupply none .totalSupply

def slotLoad (o : Options) (slot : Defi.Slot) : Load := callLoad o o.defi.fmintContract (.defi slot) none slot.call

/-- the numbers that an operation needs -/
def Operation.loads (o : Options) : Operation → List Load
  | .balance account => [⟨⟨account, .accountBalance, none⟩, o.ttl, .balance account .latest⟩]
  | .nonce account => [⟨⟨account, .accountNonce, none⟩, o.ttl, .transactionCount account .latest⟩]
  | .totalSupply t | .token t | .findToken t => [supplyLoad o t]
  | .balanceOf t owner => [callLoad o t .balanceOf (some owner) (.balanceOf owner)]
  | .allowance t owner spender =>
    let spender := spender.getD o.defi.fmintContract
    [callLoad o t (.allowance spender) (some owner) (.allowance owner spender)]
  | .logo _ => []
  | .defi => Defi.Slot.all.map (slotLoad o)

/-! ## Conclusions -/

def expectAmount : Value → Except Error Nat
  | .amount n => .ok n
  | .count _ => .error (.rpc (.decode "cached counter where an amount was expected"))

def expectCount : Value → Except Error UInt64
  | .count n => .ok n
  | .amount _ => .error (.rpc (.decode "cached amount where a counter was expected"))

/-- what a single load came to -/
def single (answers : List (Except Error Value)) : Except Error Value :=
  match answers with
  | [answer] => answer
  | _ => .error (.rpc (.decode "a load was lost"))

def amountOf (answers : List (Except Error Value)) : Except Error Nat := single answers >>= expectAmount

/-- whether a failed probe means that there is no token -/
def isAbsence : Error → Bool
  | .rpc e => !e.isTransport
  | _ => false

/-- the handle of a token that answered with its supply -/
def probe (token : Address) (answers : List (Except Error Value)) : Except Error Answer :=
  match amountOf answers with
  | .ok _ => .ok (.handle token)
  | .error e => if isAbsence e then .error (.notFound token) else .error e

/-- the settings, if every slot has been loaded -/
def settingsOf (o : Options) (answers : List (Except Error Value)) : Except Error Defi.Settings :=
  let outcomes := Defi.Slot.all.zip (answers.map fun a => a >>= expectAmount)
  match Defi.aggregate Defi.Draft.apply (Defi.Draft.new o.defi) outcomes with
  | (_, .error f) => .error (.aggregation f.slot f.error)
  | (draft, .ok ()) =>
    match draft.build with
    | .ok s => .ok s
    | .error slot => .error (.aggregation slot (.rpc (.decode (slot.name ++ " was not loaded"))))

/-- the answer to an operation whose loads came to the given values -/
def Operation.conclude (o : Options) (op : Operation) (answers : List (Except Error Value)) : Except Error Answer :=
  match op with
  | .balance _ | .totalSupply _ | .balanceOf .. | .allowance .. => (amountOf answers).map .amount
  | .nonce _ => (single answers >>= expectCount).map .count
  | .token t => probe t answers
  | .findToken t =>
    match probe t answers with
    | .error (.notFound _) => .ok .noToken
    | r => r
  | .logo t => .ok (.url (o.logos.logoFor t))
  | .defi => (settingsOf o answers).map .settings

/-- the answer to an operation whose callers in the cache came away with the given -/
def Operation.answer (o : Options) (op : Operation) (settled : List (Cache.Settled Value Rpc.Error)) :
    Except Error Answer :=
  op.conclude o (((op.loads o).zip settled).map fun (l, s) => ofSettled l.key s)

/-- asks for the loads of an operation and concludes -/
def Operation.task (o : Options) (op : Operation) : Task (Except Error Answer) :=
  .ask (op.loads o) fun settled => .done (op.answer o settled)

/-! ## Without a cache -/

/-- a node that answers every request in the same way, whenever it is asked -/
abbrev Node := Rpc.Request → Except Rpc.Error Json

/-- what a query comes to when the node is asked -/
def Node.settle (node : Node) (ns : String) (q : Rpc.Query) : Cache.Settled Value Rpc.Error :=
  match q.conclude ns (node (q.request ns)) with
  | .ok v => .value v
  | .error e => .failed e

/-- the answer to an operation when the node is asked for everything -/
def Operation.direct (o : Options) (node : Node) (ns : String) (op : Operation) : Except Error Answer :=
  (op.task o).direct (node.settle ns)

end ChainBridge.Repository
