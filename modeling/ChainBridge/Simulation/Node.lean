/-
A node that follows a script.

The first rule that fits a request and is not used up decides the reply, at the moment the request is made; every
request is written down. A request that no rule fits is a method the node does not know.
-/
import ChainBridge.Rpc.Inquiry
import ChainBridge.Simulation.Clock

namespace ChainBridge.Simulation

/-- what the node does about a request -/
inductive Reply where
  | result (v : Json)
  | error (e : Rpc.Error)
  /-- the request takes its task down with it -/
  | crash

structure Rule where
  method : Option String
  /-- the first parameter, or its member `to` -/
  address : Option Address
  /-- how the data of the first parameter starts -/
  data : Option String
  /-- how often the rule may be used -/
  times : Option Nat
  delay : Nat
  reply : Reply

structure Node where
  ns : String
  /-- the rules, and how often each was used -/
  rules : List (Rule × Nat)
  requests : List Rpc.Request

namespace Node

def new (ns : String) (rules : List Rule) : Node := ⟨ns, rules.map (·, 0), []⟩

/-- the address that a request is about -/
def target? (params : Json) : Option Address := do
  let first ← params.list?.bind List.head?
  let text ← match first with
    | .text s => some s
    | v => (v.get? "to").bind Json.text?
  (Address.parse text).toOption

def data? (params : Json) : Option String := do
  let first ← params.list?.bind List.head?
  (first.get? "data").bind Json.text?

def fits (r : Rule) (used : Nat) (q : Rpc.Request) : Bool :=
  (match r.method with
    | none => true
    | some m => m == q.method) &&
  (match r.address with
    | none => true
    | some a => decide (target? q.params = some a)) &&
  (match r.data with
    | none => true
    | some d => match data? q.params with
      | some text => d.toList.isPrefixOf text.toList
      | none => false) &&
  (match r.times with
    | none => true
    | some n => decide (used < n))

/-- the first rule that fits, counted as used -/
def choose (q : Rpc.Request) : List (Rule × Nat) → List (Rule × Nat) × Option Rule
  | [] => ([], none)
  | (r, used) :: rest =>
    if fits r used q then ((r, used + 1) :: rest, some r)
    else
      let (rest, found) := choose q rest
      ((r, used) :: rest, found)

/-- how long the node takes over a request, and how it replies -/
def answer (n : Node) (q : Rpc.Request) : Node × Nat × Reply :=
  let (rules, found) := choose q n.rules
  let n := { n with rules := rules, requests := n.requests ++ [q] }
  match found with
  | some r => (n, r.delay, r.reply)
  | none => (n, 0, .error (.remote (-32601) (q.method ++ " not found")))

/-- the node as what requests go to, with the time that it has taken over them -/
def carrier : Rpc.Carrier (Node × Nat)
  | (n, elapsed), q =>
    let (after, delay, reply) := n.answer q
    ((after, elapsed + delay), match reply with
      | .result v => some (.ok v)
      | .error e => some (.error e)
      | .crash => none)

/-- asks a query; what it will come to, and what is counted then -/
def start (n : Node) (q : Rpc.Query) : Node × Course Value Rpc.Error :=
  let t := (q.inquiry n.ns).follow carrier (n, 0)
  (t.after.1, ⟨t.after.2, t.answer, t.counted⟩)

/-- hands over the requests written down so far -/
def takeRequests (n : Node) : Node × List Rpc.Request := ({ n with requests := [] }, n.requests)

end Node

end ChainBridge.Simulation
