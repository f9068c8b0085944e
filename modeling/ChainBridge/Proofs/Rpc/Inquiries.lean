/-
What comes of asking a query, whatever carries the request.

Followed against any carrier an inquiry sends its one request and ends with what the query makes of the reply
(`follow_inquiry`). A value comes of a text that the reader of the query's own kind takes, and of nothing else
(`conclude_ok_iff`): other texts, and whatever is no text, are decoding errors that show what came
(`conclude_text`, `conclude_other`), and the error of a request that failed is passed on.

Blocks are told apart by their parameter (`BlockTag.param_injective`), since no name of a block is a number. The last
parameter of a request is the block, so the request tells which query it is, with all that was given to it
(`request_injective`).

- `inquiries_answered`: one request for each inquiry, an answer that is true to its reply, and no two queries with one
  request.
-/
import Mathlib
import ChainBridge.Proofs.Defi.Slots
import ChainBridge.Proofs.Quantity.Counts
import ChainBridge.Proofs.Rpc.Requests
import ChainBridge.Rpc.Inquiry

namespace ChainBridge

/-! ## Blocks -/

namespace BlockTag

/-- the parameters that read as counts are those of numbered blocks -/
theorem decodeCount_param_iff {b : BlockTag} {n : UInt64} :
    Quantity.decodeCount b.param = .ok n ↔ b = .number n := by
  cases b with
  | number m => rw [param, Quantity.decodeCount_encodeCount, Except.ok.injEq, number.injEq]
  | _ => simp [param, Quantity.decodeCount, Quantity.digits, Text.Hex.unmark?, bind, Except.bind]

theorem param_injective : Function.Injective param := by
  intro b b' h
  cases b with
  | number n =>
    have hread : Quantity.decodeCount b'.param = .ok n := by
      rw [← h]
      exact decodeCount_param_iff.2 rfl
    exact (decodeCount_param_iff.1 hread).symm
  | _ =>
    cases b' with
    | number n =>
      have hread := decodeCount_param_iff.2 (rfl : number n = number n)
      rw [← h] at hread
      exact decodeCount_param_iff.1 hread
    | _ => first | rfl | exact absurd h (by decide)

end BlockTag

namespace Rpc

open Quantity

namespace Query

/-! ## What a query makes of a reply -/

/-- which number a text is to the query that it answers -/
inductive Reads : Query → String → Value → Prop
  | balance {account block text n} (h : decodeAmount text = .ok n) : Reads (.balance account block) text (.amount n)
  | transactionCount {account block text n} (h : decodeCount text = .ok n) :
    Reads (.transactionCount account block) text (.count n)
  | call {contract c block text n} (h : decodeWord text = .ok n) : Reads (.call contract c block) text (.amount n)

variable {ns : String} {q : Query} {text : String} {v : Value}

theorem decode_ok_iff : q.decode text = .ok v ↔ q.Reads text v := by
  constructor
  · intro h
    cases q with
    | balance account block =>
      obtain ⟨n, hread, rfl⟩ := map_eq_ok_iff.1 h
      exact .balance hread
    | transactionCount account block =>
      obtain ⟨n, hread, rfl⟩ := map_eq_ok_iff.1 h
      exact .transactionCount hread
    | call contract c block =>
      obtain ⟨n, hread, rfl⟩ := map_eq_ok_iff.1 h
      exact .call hread
  · rintro (h | h | h) <;> exact map_eq_ok_iff.2 ⟨_, h, rfl⟩

theorem conclude_text : q.conclude ns (.ok (.text text)) = (q.decode text).mapError .ofQuantity := by
  simp only [conclude, expectText, bind, Except.bind]
  cases q.decode text <;> rfl

theorem conclude_other {j : Json} (h : ∀ text, j ≠ .text text) :
    q.conclude ns (.ok j) = .error (.decode (q.method ns ++ " result is not a string: " ++ j.compact)) := by
  cases j with
  | text s => exact absurd rfl (h s)
  | _ => rfl

/-- a value comes of a text that reads, and of nothing else -/
theorem conclude_ok_iff {reply : Except Error Json} :
    q.conclude ns reply = .ok v ↔ ∃ text, reply = .ok (.text text) ∧ q.Reads text v := by
  cases reply with
  | error e => simp [conclude, bind, Except.bind]
  | ok j =>
    by_cases htext : ∃ text, j = .text text
    · obtain ⟨text, rfl⟩ := htext
      rw [conclude_text]
      simp only [Except.ok.injEq, Json.text.injEq, exists_eq_left', ← decode_ok_iff]
      cases q.decode text <;> simp [Except.mapError]
    · have hother := not_exists.1 htext
      rw [conclude_other hother]
      simp [hother]

/-- a reply from which no value can be read is a decoding error -/
theorem conclude_unread {j : Json} (h : ∀ text v, j = .text text → ¬q.Reads text v) :
    ∃ words, q.conclude ns (.ok j) = .error (.decode words) := by
  by_cases htext : ∃ text, j = .text text
  · obtain ⟨text, rfl⟩ := htext
    cases hread : q.decode text with
    | ok v => exact absurd (decode_ok_iff.1 hread) (h text v rfl)
    | error fault => exact ⟨fault.message, by rw [conclude_text, hread]; rfl⟩
  · exact ⟨_, conclude_other (not_exists.1 htext)⟩

/-! ## One request and its answer -/

/-- an inquiry sends its request, and ends with what the query makes of the reply if there is one -/
theorem follow_inquiry {σ : Type} (carrier : Carrier σ) (s : σ) :
    (q.inquiry ns).follow carrier s =
      let (after, reply) := carrier s (q.request ns)
      ⟨after, [(q.request ns, reply)], (reply.map (q.counter ns)).toList, reply.map (q.conclude ns)⟩ := by
  simp only [inquiry, Inquiry.follow]
  rcases carrier s (q.request ns) with ⟨after, _ | reply⟩ <;> rfl

/-! ## Requests -/

theorem param_of_params {q q' : Query} (h : q.params = q'.params) : q.block.param = q'.block.param := by
  have hlast (q : Query) : q.params.list?.bind List.getLast? = some (.text q.block.param) := by cases q <;> rfl
  have hsame := (hlast q).symm.trans ((congrArg (fun j => j.list?.bind List.getLast?) h).trans (hlast q'))
  exact Json.text.inj (Option.some.inj hsame)

/-- different queries make different requests -/
theorem request_injective (ns : String) : Function.Injective (request ns) := by
  intro q q' h
  have hblock : q.block = q'.block := BlockTag.param_injective (param_of_params (Request.mk.inj h).2)
  exact eq_of_request hblock h

end Query

/-! ## Inquiries -/

/-- what the transcript of an inquiry tells, given what its request came to -/
structure Answered {σ : Type} (ns : String) (q : Query) (came : σ × Option (Except Error Json))
    (t : Transcript σ (Except Error Value)) : Prop where
  /-- the carrier has seen the one request -/
  once : t.sent = [(q.request ns, came.2)]
  after : t.after = came.1
  /-- values are read from texts, by the reader of the query's kind -/
  value : ∀ v, t.answer = some (.ok v) ↔ ∃ text, came.2 = some (.ok (.text text)) ∧ q.Reads text v
  /-- a failure is handed on as it is -/
  failure : ∀ e, came.2 = some (.error e) → t.answer = some (.error e)
  /-- what cannot be read is said to be so -/
  unread : ∀ j, came.2 = some (.ok j) → (∀ text v, j = .text text → ¬q.Reads text v) →
    ∃ words, t.answer = some (.error (.decode words))
  /-- without a reply there is no answer -/
  silent : came.2 = none → t.answer = none

/-- **Inquiries answer what was replied.** Against any carrier, an inquiry sends one request and no other. It answers
with a number just if the reply is a text that the reader of its kind takes for that number; it hands on the error of a
request that failed, and makes a decoding error of anything else. In one namespace different queries make different
requests: the request tells the kind of the query, the account or contract, the call with its arguments and the
block. -/
theorem inquiries_answered (ns : String) :
    (∀ {σ : Type} (carrier : Carrier σ) (s : σ) (q : Query),
      Answered ns q (carrier s (q.request ns)) ((q.inquiry ns).follow carrier s)) ∧
    Function.Injective (Query.request ns) := by
  refine ⟨fun carrier s q => ?_, Query.request_injective ns⟩
  rw [Query.follow_inquiry]
  rcases carrier s (q.request ns) with ⟨after, reply⟩
  refine ⟨rfl, rfl, fun v => ?_, ?_, ?_, ?_⟩
  · simp only [Option.map_eq_some_iff, Query.conclude_ok_iff]
    constructor
    · rintro ⟨_, hreply, text, rfl, hread⟩
      exact ⟨text, hreply, hread⟩
    · rintro ⟨text, hreply, hread⟩
      exact ⟨_, hreply, text, rfl, hread⟩
  · rintro e rfl
    rfl
  · rintro j rfl hunread
    obtain ⟨words, h⟩ := Query.conclude_unread hunread
    exact ⟨words, congrArg some h⟩
  · rintro rfl
    rfl

/-- a call whose contract has no code returns no words, and that is not taken for zero -/
theorem inquiries_answered_empty :
    let supply : Query := .call ⟨List.replicate 20 1, rfl⟩ .totalSupply .latest
    let t := (supply.inquiry defaultNamespace).follow (fun calls _ => (calls + 1, some (.ok (.text "0x")))) 0
    t.after = 1 ∧ ∃ words, t.answer = some (.error (.decode words)) := by
  intro supply t
  have h := (inquiries_answered defaultNamespace).1 (fun calls _ => (calls + 1, some (.ok (.text "0x")))) 0 supply
  refine ⟨h.after, h.unread (.text "0x") rfl fun text v htext hread => ?_⟩
  have hempty : supply.decode "0x" = .error .empty := rfl
  rw [← Json.text.inj htext, ← Query.decode_ok_iff, hempty] at hread
  cases hread

end Rpc

end ChainBridge
