/-
How an inquiry ended, and as what it is counted.

An inquiry counts its request when the reply has come, before it looks into it. So the total of its method grows by one
for each reply, in the series of the reply's own outcome (`count_tell`, `follow_inquiry`). What the caller gets is known
only later. Both are the same for a request that failed and for a reply that reads; a reply that does not read is a
decoding error for the caller and a success for the counter.

- `outcomes_counted`: what is counted in each case, and when that is what the caller gets.
- `unread_counted_as_success`: an answer without a digit, which is counted as a success.
-/
import Mathlib
import ChainBridge.Proofs.Cache.Series
import ChainBridge.Proofs.Rpc.Inquiries

namespace ChainBridge

/-! ## Telling a registry -/

namespace Metrics.Registry

/-- a registry that is told of counters one after the other -/
def tell (r : Registry) (counted : List Counter) : Registry := counted.foldl (fun r counter => r.add counter 1) r

/-- the questions that went to one method of the node, however they ended -/
def callsOf (r : Registry) (method : String) : Nat :=
  r.count (.rpcCalls method none) + r.count (.rpcCalls method (some .transport)) +
    r.count (.rpcCalls method (some .remote)) + r.count (.rpcCalls method (some .decode))

theorem count_add (r : Registry) (counter : Counter) (n : Nat) (other : Counter) :
    (r.add counter n).count other = r.count other + if other = counter then n else 0 := by
  rw [count, count?_add]
  by_cases h : other = counter
  · rw [if_pos h, if_pos h, h]
    rfl
  · rw [if_neg h, if_neg h]
    rfl

/-- each series grows by as many as it is told of -/
theorem count_tell (r : Registry) (counted : List Counter) (counter : Counter) :
    (r.tell counted).count counter = r.count counter + counted.count counter := by
  induction counted generalizing r with
  | nil => rfl
  | cons c rest ih =>
    have hrest := ih (r.add c 1)
    rw [count_add] at hrest
    rw [tell, List.foldl_cons, ← tell, hrest, List.count_cons]
    by_cases h : counter = c
    · rw [if_pos h, if_pos (beq_iff_eq.2 h.symm)]
      omega
    · rw [if_neg h, if_neg fun hc => h (beq_iff_eq.1 hc).symm]
      omega

/-- a question is one of its method's, however it ends -/
theorem callsOf_tell (r : Registry) (method : String) (failure : Option Rpc.ErrorKind) (other : String) :
    (r.tell [.rpcCalls method failure]).callsOf other = r.callsOf other + if other = method then 1 else 0 := by
  simp only [callsOf, count_tell, List.count_singleton, beq_iff_eq, Counter.rpcCalls.injEq]
  by_cases h : method = other
  · subst h
    rcases failure with _ | _ | _ | _ <;> simp <;> omega
  · simp [h, Ne.symm h]

end Metrics.Registry

namespace Rpc

open Metrics (Registry)

/-! ## Outcomes -/

/-- how something ended: well, or with an error of some kind -/
def outcome {α : Type} : Except Error α → Option ErrorKind
  | .ok _ => none
  | .error e => some e.kind

/-- the outcome as a label of a series -/
def outcomeLabel (o : Option ErrorKind) : String := (o.map ErrorKind.label).getD "success"

theorem series_rpcCalls (method : String) (o : Option ErrorKind) : (Metrics.Counter.rpcCalls method o).series =
    Metrics.series "motif_rpc_calls_total" [("method", method), ("outcome", outcomeLabel o)] := rfl

/-- no two outcomes have one label -/
theorem outcomeLabel_injective : Function.Injective outcomeLabel := by
  intro o p h
  rcases o with _ | _ | _ | _ <;> rcases p with _ | _ | _ | _ <;> first | rfl | exact absurd h (by decide)

namespace Query

variable {ns : String} {q : Query} {reply : Except Error Json}

/-- a reply that is none for the query: it came well, and no value can be read from it -/
def Unread (q : Query) (reply : Except Error Json) : Prop :=
  ∃ j, reply = .ok j ∧ ∀ text v, j = .text text → ¬q.Reads text v

/-- a reply is counted by how it came -/
theorem counter_eq : q.counter ns reply = .rpcCalls (q.method ns) (outcome reply) := by
  cases reply <;> rfl

/-- what cannot be read came well, and is a decoding error -/
theorem Unread.outcomes (ns : String) (h : q.Unread reply) :
    outcome reply = none ∧ outcome (q.conclude ns reply) = some .decode := by
  obtain ⟨j, rfl, hunread⟩ := h
  obtain ⟨words, hwords⟩ := @conclude_unread ns q j hunread
  rw [hwords]
  exact ⟨rfl, rfl⟩

/-- an answer ends as its reply did, unless the reply cannot be read -/
theorem outcome_conclude_iff :
    outcomeLabel (outcome reply) = outcomeLabel (outcome (q.conclude ns reply)) ↔ ¬q.Unread reply := by
  rw [outcomeLabel_injective.eq_iff]
  constructor
  · intro hsame hunread
    obtain ⟨hcame, hended⟩ := hunread.outcomes ns
    rw [hcame, hended] at hsame
    cases hsame
  · intro hread
    cases reply with
    | error e => rfl
    | ok j =>
      -- something can be read, so there is a value
      obtain ⟨text, v, rfl, hv⟩ : ∃ text v, j = .text text ∧ q.Reads text v := by
        by_contra hnone
        apply hread
        refine ⟨j, rfl, ?_⟩
        intro text v htext hv
        exact hnone ⟨text, v, htext, hv⟩
      rw [conclude_ok_iff.2 ⟨text, rfl, hv⟩]
      rfl

end Query

/-! ## What is counted -/

/-- what an inquiry adds to a registry when its request has been replied to, and what its caller gets -/
structure Counted (ns : String) (q : Query) (reply : Except Error Json) (answer : Except Error Value)
    (before after : Registry) : Prop where
  /-- one more question of the method, and none of another -/
  total : ∀ method, after.callsOf method = before.callsOf method + if method = q.method ns then 1 else 0
  /-- it is in the series of how the reply came, and no other series is touched -/
  series : ∀ counter, after.count counter =
    before.count counter + if counter = .rpcCalls (q.method ns) (outcome reply) then 1 else 0
  /-- that is how the inquiry ended for its caller just if the reply could be read, or none came well -/
  faithful : outcomeLabel (outcome reply) = outcomeLabel (outcome answer) ↔ ¬q.Unread reply
  /-- otherwise a decoding error is counted as a success -/
  unread : q.Unread reply → outcome reply = none ∧ outcome answer = some .decode

/-- **Inquiries are counted by how their replies came.** Whatever carries the request of an inquiry, the total of its
method grows by one when a reply comes, and nothing is counted when none comes. What is counted is the outcome that the
caller gets, success or the kind of the error, unless the reply came well and cannot be read: then a success is counted,
and the caller gets a decoding error. -/
theorem outcomes_counted (ns : String) {σ : Type} (carrier : Carrier σ) (s : σ) (q : Query) (r : Registry) :
    let t := (q.inquiry ns).follow carrier s
    ((carrier s (q.request ns)).2 = none → t.answer = none ∧ r.tell t.counted = r) ∧
    ∀ reply, (carrier s (q.request ns)).2 = some reply →
      t.counted.map Metrics.Counter.series = [Metrics.series "motif_rpc_calls_total"
        [("method", q.method ns), ("outcome", outcomeLabel (outcome reply))]] ∧
      ∃ answer, t.answer = some answer ∧ Counted ns q reply answer r (r.tell t.counted) := by
  intro t
  obtain ⟨hanswer, hcounted⟩ : t.answer = (carrier s (q.request ns)).2.map (q.conclude ns) ∧
      t.counted = ((carrier s (q.request ns)).2.map (q.counter ns)).toList := by
    simp only [t, Query.follow_inquiry, and_self]
  constructor
  · intro hsilent
    rw [hsilent] at hanswer hcounted
    rw [hcounted]
    exact ⟨hanswer, rfl⟩
  · intro reply hreply
    rw [hreply] at hanswer hcounted
    have hone : t.counted = [.rpcCalls (q.method ns) (outcome reply)] := by
      rw [hcounted, ← Query.counter_eq]
      rfl
    refine ⟨by rw [hone, List.map_singleton, series_rpcCalls], q.conclude ns reply, hanswer, ?_, ?_,
      Query.outcome_conclude_iff, Query.Unread.outcomes ns⟩
    · intro method
      rw [hone, Registry.callsOf_tell]
    · intro counter
      rw [hone, Registry.count_tell, List.count_singleton]
      simp only [beq_iff_eq, @eq_comm _ counter]

/-- a node that answers everything with a marker and no digit, and knows how often it was asked -/
def bareMarker : Carrier Nat := fun asked _ => (asked + 1, some (.ok (.text "0x")))

/-- such a node is asked for the balance of the zero address -/
def digitless : Transcript Nat (Except Error Value) :=
  ((Query.balance .zero .latest).inquiry defaultNamespace).follow bareMarker 0

/-- a reply that cannot be read is one more success of its method -/
theorem outcomes_counted_digitless :
    Query.Unread (.balance .zero .latest) (.ok (.text "0x")) ∧
    ∃ e, digitless.answer = some (.error e) ∧ e.kind = .decode ∧
      (Registry.empty.tell digitless.counted).count (.rpcCalls "ftm_getBalance" none) = 1 ∧
      (Registry.empty.tell digitless.counted).count (.rpcCalls "ftm_getBalance" (some .decode)) = 0 := by
  have hunread : Query.Unread (.balance .zero .latest) (.ok (.text "0x")) := by
    refine ⟨.text "0x", rfl, ?_⟩
    intro text v htext hread
    have hempty : Query.decode (.balance .zero .latest) "0x" = .error .empty := rfl
    rw [← Json.text.inj htext, ← Query.decode_ok_iff, hempty] at hread
    cases hread
  obtain ⟨-, hcounted⟩ := outcomes_counted defaultNamespace bareMarker 0 (.balance .zero .latest) .empty
  obtain ⟨-, answer, hanswer, h⟩ := hcounted (.ok (.text "0x")) rfl
  obtain ⟨hcame, hended⟩ := h.unread hunread
  cases answer with
  | ok v => cases hended
  | error e =>
    refine ⟨hunread, e, hanswer, Option.some.inj hended, ?_, ?_⟩
    · rw [digitless, h.series, hcame]
      rfl
    · rw [digitless, h.series, hcame]
      rfl

/-- it is not so that each inquiry is counted as what its caller gets -/
theorem unread_counted_as_success :
    ¬∀ (ns : String) (q : Query) (carrier : Carrier Nat) (s : Nat) (answer : Except Error Value),
      ((q.inquiry ns).follow carrier s).answer = some answer →
      ((q.inquiry ns).follow carrier s).counted = [.rpcCalls (q.method ns) (outcome answer)] := by
  intro hall
  have hempty : digitless.answer = some (.error (.ofQuantity .empty)) := rfl
  have hcounted := hall defaultNamespace (.balance .zero .latest) bareMarker 0 _ hempty
  obtain ⟨-, hsame⟩ := Metrics.Counter.rpcCalls.inj (List.cons.inj hcounted).1
  cases hsame

end Rpc

end ChainBridge
