/-
What asking a query takes: requests to whatever carries them, and what is counted on the way.

An inquiry is a program, apart from any carrier: it ends with an answer, or sends a request and goes on from the reply,
or counts something and goes on. Followed against a carrier it leaves a transcript. A request that the carrier never
replies to, or that takes its task down with it, is the last thing of an inquiry, which then has no answer.
-/
import ChainBridge.Rpc.Query

namespace ChainBridge.Rpc

inductive Inquiry (α : Type) where
  | done (answer : α)
  | send (request : Request) (next : Except Error Json → Inquiry α)
  | count (counter : Metrics.Counter) (next : Inquiry α)

/-- one request and its reply, counted before the reply is looked into -/
def Query.inquiry (ns : String) (q : Query) : Inquiry (Except Error Value) :=
  .send (q.request ns) fun reply => .count (q.counter ns reply) (.done (q.conclude ns reply))

/-- what requests go to: it has a state of its own, and a request may come to nothing -/
abbrev Carrier (σ : Type) := σ → Request → σ × Option (Except Error Json)

structure Transcript (σ α : Type) where
  /-- the carrier afterwards -/
  after : σ
  /-- the requests in order, with what came of each -/
  sent : List (Request × Option (Except Error Json))
  counted : List Metrics.Counter
  answer : Option α

namespace Inquiry

variable {σ α : Type}

def follow (carrier : Carrier σ) (s : σ) : Inquiry α → Transcript σ α
  | .done answer => ⟨s, [], [], some answer⟩
  | .send request next =>
    let (s, reply) := carrier s request
    match reply with
    | none => ⟨s, [(request, none)], [], none⟩
    | some r =>
      let rest := follow carrier s (next r)
      { rest with sent := (request, some r) :: rest.sent }
  | .count counter next =>
    let rest := follow carrier s next
    { rest with counted := counter :: rest.counted }

end Inquiry

end ChainBridge.Rpc
