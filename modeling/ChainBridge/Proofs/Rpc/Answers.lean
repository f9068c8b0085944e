/-
What an answer comes to.

The status, the body, the error and the result are looked at in this order, and the first that settles it does (`Comes`).
So a result is never null and never stands beside an error: `answers_classified`.
-/
import Mathlib
import ChainBridge.Proofs.Rpc.Records
import ChainBridge.Proofs.Text.Utf8
import ChainBridge.Rpc.Client

namespace ChainBridge.Rpc

open Text

/-! ## Results -/

theorem toFloat_ne_null (negative : Bool) (n : Nat) (place : Int) (exponent : Option (Bool × List Char)) :
    Json.Numeral.toFloat negative n place exponent ≠ some .null := by
  unfold Json.Numeral.toFloat
  split
  · simp [Json.Numeral.signed]
  · simp only
    split_ifs
    all_goals simp [Json.Numeral.signed]

theorem toJson?_ne_null (t : Json.Numeral) : t.toJson? ≠ some .null := by
  unfold Json.Numeral.toJson?
  simp only
  split
  · split_ifs
    all_goals simp [Json.Numeral.signed]
  · exact toFloat_ne_null _ _ _ _
  · exact toFloat_ne_null _ _ _ _

/-- only null means null -/
theorem ofDraft_ne_null {room : Nat} {d : Json.Draft} (h : d ≠ .null) : Json.ofDraft room d ≠ some .null := by
  cases d with
  | null => exact absurd rfl h
  | bool b => simp [Json.ofDraft]
  | number n => exact toJson?_ne_null n
  | text ps => simp [Json.ofDraft]
  | list items => cases room <;> simp [Json.ofDraft]
  | object members => cases room <;> simp [Json.ofDraft, Json.ofMembers]

/-- a value that may be absent or null is never null -/
theorem Maybe.ne_null {outer : Nat} {member : Option Json.Draft} (h : Maybe (IsValue outer) member (some .null)) :
    False := by
  cases h with
  | value hd h => exact ofDraft_ne_null hd h

theorem IsResponse.result_ne_null {d : Json.Draft} {r : Response} (h : IsResponse d r) : r.result ≠ some .null := by
  obtain ⟨version, result, error, id, number, -, -, hresult, -⟩ := h
  intro hnull
  rw [hnull] at hresult
  exact hresult.ne_null

/-- a draft that has a value where the error of an answer stands, by its name or by its place -/
def BringsError (d e : Json.Draft) : Prop :=
  (∃ ms pieces, d = .object ms ∧ (pieces, e) ∈ ms ∧ Json.textOf pieces = some "error") ∨
    ∃ items, d = .list items ∧ items[2]? = some e

theorem Named.mem {ms : List (List Json.Piece × Json.Draft)} {named : List (String × Json.Draft)} (h : Named ms named)
    {pieces : List Json.Piece} {name : String} {d : Json.Draft} (hm : (pieces, d) ∈ ms)
    (hname : Json.textOf pieces = some name) : (name, d) ∈ named := by
  induction h with
  | nil => exact absurd hm List.not_mem_nil
  | cons hhead _ ih =>
    rcases List.mem_cons.1 hm with rfl | hm
    · rw [hname, Option.some.injEq] at hhead
      obtain ⟨rfl, rfl⟩ := hhead
      exact List.mem_cons_self
    · exact List.mem_cons_of_mem _ (ih hm)

theorem Under.eq_of_mem {named : List (String × Json.Draft)} {name : String} {value : Option Json.Draft}
    (h : Under named name value) {d : Json.Draft} (hm : (name, d) ∈ named) : value = some d := by
  cases h with
  | absent h => exact absurd (List.mem_map_of_mem hm) h
  | present h hbefore hafter =>
    rw [h, List.mem_append, List.mem_cons] at hm
    rcases hm with hm | hm | hm
    · exact absurd (List.mem_map_of_mem hm) hbefore
    · rw [(Prod.mk.inj hm).2]
    · exact absurd (List.mem_map_of_mem hm) hafter

/-- an answer that brings more than null for an error has one -/
theorem IsResponse.error_of_brings {d e : Json.Draft} {r : Response} (h : IsResponse d r) (hbrings : BringsError d e)
    (he : e ≠ .null) : r.error ≠ none := by
  obtain ⟨version, result, error, id, number, hrecord, -, -, herror, -⟩ := h
  have hmember : error = some e := by
    rcases hbrings with ⟨ms, pieces, rfl, hm, hname⟩ | ⟨items, rfl, hitem⟩
    · cases hrecord with
      | byName hnamed hvalues =>
        cases hvalues with
        | cons _ hvalues =>
          cases hvalues with
          | cons _ hvalues =>
            cases hvalues with
            | cons hunder _ => exact hunder.eq_of_mem (hnamed.mem hm hname)
    · generalize hvalues : [version, result, error, id] = values at hrecord
      cases hrecord with
      | byPlace h =>
        have hthird := congrArg (·[2]?) hvalues
        have hlength := (List.getElem?_eq_some_iff.1 hitem).1
        rw [List.getElem?_append_left (by rwa [List.length_map]), List.getElem?_map, hitem] at hthird
        exact Option.some.inj hthird
  intro hnone
  rw [hmember, hnone] at herror
  cases herror with
  | null => exact he rfl

/-! ## Classes of answers -/

/-- a status of 2xx -/
def WentWell (status : UInt16) : Prop := 200 ≤ status.toNat ∧ status.toNat < 300

/-- the part of a text that is kept: all of it if it has at most 256 bytes, else as much as fits, and a mark -/
inductive Kept (text : List Char) : String → Prop where
  | whole (h : Utf8.size text ≤ 256) : Kept text (String.ofList text)
  | truncated {front rest : List Char} {c : Char} (h : text = front ++ c :: rest) (hfits : Utf8.size front ≤ 256)
      (hfull : 256 < Utf8.size (front ++ [c])) : Kept text (String.ofList (front ++ "... (truncated)".toList))

/-- a body is an answer -/
def Carries (body : List UInt8) (r : Response) : Prop := ∃ d, Json.Draft.ofBytes? body = some d ∧ IsResponse d r

/-- what a question comes to that is answered with a status and a body -/
inductive Comes (method : String) (status : UInt16) (body : List UInt8) : Except Error Json → Prop where
  | refused {text : String} (hstatus : ¬WentWell status) (htext : Kept (Utf8.decode body) text) :
      Comes method status body (.error (.http status text))
  | malformed (hstatus : WentWell status) (hbody : ∀ r, ¬Carries body r) :
      Comes method status body (.error (.decode "malformed JSON-RPC response"))
  | failed {r : Response} {e : ErrorObject} (hstatus : WentWell status) (hbody : Carries body r)
      (herror : r.error = some e) : Comes method status body (.error (.remote e.code e.message))
  | empty {r : Response} (hstatus : WentWell status) (hbody : Carries body r) (herror : r.error = none)
      (hresult : r.result = none) :
      Comes method status body (.error (.decode (method ++ " response carried no result")))
  | brought {r : Response} {v : Json} (hstatus : WentWell status) (hbody : Carries body r) (herror : r.error = none)
      (hresult : r.result = some v) : Comes method status body (.ok v)

theorem isSuccess_iff {status : UInt16} : isSuccess status = true ↔ WentWell status := by
  simp [isSuccess, WentWell, UInt16.le_iff_toNat_le, UInt16.lt_iff_toNat_lt]

theorem kept_keptText (text : List Char) : Kept text (String.ofList (keptText text)) := by
  unfold keptText
  split_ifs with h
  · exact .whole h
  · obtain ⟨c, rest, hsplit, hfits, hfull⟩ := Utf8.cut_of_lt_size (Nat.lt_of_not_le h)
    exact .truncated hsplit hfits hfull

theorem carries_iff {body : List UInt8} {r : Response} :
    (Json.Draft.ofBytes? body).bind Response.ofDraft? = some r ↔ Carries body r := by
  simp only [Carries, Option.bind_eq_some_iff, Response.ofDraft?_eq_some_iff]

/-- every answer comes to what its class says -/
theorem result_comes (method : String) (status : UInt16) (body : List UInt8) :
    Comes method status body ((Delivery.answered status body).result method) := by
  by_cases hstatus : WentWell status
  · have hresult : (Delivery.answered status body).result method = readBody method body := by
      rw [Delivery.result, Delivery.body, if_pos (isSuccess_iff.2 hstatus)]
      rfl
    rw [hresult, readBody]
    cases hread : (Json.Draft.ofBytes? body).bind Response.ofDraft? with
    | none =>
      refine .malformed hstatus fun r hr => ?_
      rw [carries_iff.2 hr] at hread
      exact absurd hread (by simp)
    | some r =>
      have hbody := carries_iff.1 hread
      have hnull : r.result ≠ some .null := by
        obtain ⟨d, -, hd⟩ := hbody
        exact hd.result_ne_null
      dsimp only
      split
      · rename_i e herror
        exact .failed hstatus hbody herror
      · rename_i herror hvalue
        exact .empty hstatus hbody herror hvalue
      · rename_i hvalue
        exact absurd hvalue hnull
      · rename_i v _ herror hvalue
        exact .brought hstatus hbody herror hvalue
  · have hresult : (Delivery.answered status body).result method = .error (.http status (keptBody body)) := by
      rw [Delivery.result, Delivery.body, if_neg (mt isSuccess_iff.1 hstatus)]
      rfl
    rw [hresult]
    exact .refused hstatus (kept_keptText _)

theorem Kept.unique {text : List Char} {a b : String} (ha : Kept text a) (hb : Kept text b) : a = b := by
  have hsize : ∀ (front rest : List Char) (c : Char),
      Utf8.size (front ++ [c]) + Utf8.size rest = Utf8.size (front ++ c :: rest) := by
    intro front rest c
    rw [← Utf8.size_append, List.append_assoc, List.singleton_append]
  -- a part that is kept does not go on behind a character that does not fit
  have hshort : ∀ {front rest : List Char} {c : Char}, 256 < Utf8.size (front ++ [c]) →
      ¬Utf8.size (front ++ c :: rest) ≤ 256 := by
    intro front rest c hfull hfits
    have := hsize front rest c
    omega
  cases ha with
  | whole ha =>
    cases hb with
    | whole => rfl
    | truncated h _ hfull => exact absurd (h ▸ ha) (hshort hfull)
  | truncated h hfits hfull =>
    cases hb with
    | whole hb => exact absurd (h ▸ hb) (hshort hfull)
    | truncated h' hfits' hfull' =>
      rcases List.append_eq_append_iff.1 (h.symm.trans h') with ⟨more, rfl, hmore⟩ | ⟨more, rfl, hmore⟩
      · cases more with
        | nil => rw [List.append_nil]
        | cons x more =>
          obtain ⟨rfl, -⟩ := List.cons.inj hmore
          exact absurd hfits' (hshort hfull)
      · cases more with
        | nil => rw [List.append_nil]
        | cons x more =>
          obtain ⟨rfl, -⟩ := List.cons.inj hmore
          exact absurd hfits (hshort hfull')

/-- the class of an answer says what it comes to, so no answer has two -/
theorem Comes.result_eq {method : String} {status : UInt16} {body : List UInt8} {x : Except Error Json}
    (h : Comes method status body x) : (Delivery.answered status body).result method = x := by
  have hwell : WentWell status → (Delivery.answered status body).result method = readBody method body := by
    intro hstatus
    rw [Delivery.result, Delivery.body, if_pos (isSuccess_iff.2 hstatus)]
    rfl
  cases h with
  | refused hstatus htext =>
    rw [Delivery.result, Delivery.body, if_neg (mt isSuccess_iff.1 hstatus), htext.unique (kept_keptText _)]
    rfl
  | malformed hstatus hbody =>
    have hnone : (Json.Draft.ofBytes? body).bind Response.ofDraft? = none := by
      rw [Option.eq_none_iff_forall_ne_some]
      exact fun r hr => hbody r (carries_iff.1 hr)
    rw [hwell hstatus, readBody, hnone]
  | failed hstatus hbody herror =>
    rw [hwell hstatus, readBody, carries_iff.2 hbody]
    simp only [herror]
  | empty hstatus hbody herror hresult =>
    rw [hwell hstatus, readBody, carries_iff.2 hbody]
    simp only [herror, hresult]
  | brought hstatus hbody herror hresult =>
    obtain ⟨d, hdraft, hd⟩ := hbody
    have hnull := hd.result_ne_null
    rw [hwell hstatus, readBody, carries_iff.2 ⟨d, hdraft, hd⟩]
    simp only [herror]
    split
    · rename_i heq
      exact absurd heq (by simp)
    · rename_i hnone
      exact absurd (hresult.symm.trans hnone) (by simp)
    · rename_i heq
      exact absurd heq hnull
    · rename_i heq
      rw [hresult] at heq
      rw [Option.some.inj heq]

theorem result_eq_iff {method : String} {status : UInt16} {body : List UInt8} {x : Except Error Json} :
    (Delivery.answered status body).result method = x ↔ Comes method status body x := by
  constructor
  · rintro rfl
    exact result_comes method status body
  · exact Comes.result_eq

/-! ## Numbers of calls -/

namespace Calls

/-- the numbers that calls have taken are 1, 2 and so on, and the next one is next -/
structure Numbered (st : St) : Prop where
  issued : st.issued.map (·.id) = (List.range st.issued.length).map fun i => UInt64.ofNat (i + 1)
  next : st.transport.nextId = UInt64.ofNat (st.issued.length + 1)

theorem Numbered.step {st : St} (h : Numbered st) (a : Act) : Numbered (step st a) := by
  cases a with
  | call method params =>
    refine ⟨?_, ?_⟩
    · simp only [Calls.step, Transport.next, List.map_append, h.issued, List.length_append, List.length_singleton,
        List.range_succ, List.map_singleton, RequestEnvelope.new, h.next]
    · simp only [Calls.step, Transport.next, h.next, List.length_append, List.length_singleton]
      exact (UInt64.ofNat_add _ 1).symm
  | enter i =>
    simp only [Calls.step]
    split
    · exact ⟨h.issued, h.next⟩
    · exact h
  | client a => exact ⟨h.issued, h.next⟩

theorem Numbered.run {st : St} (h : Numbered st) (acts : List Act) : Numbered (run st acts) := by
  induction acts generalizing st with
  | nil => exact h
  | cons a acts ih => exact ih (h.step a)

theorem numbered_new {url : String} {limit : Nat} {st : St} (h : new? url limit = some st) : Numbered st := by
  obtain ⟨client, -, rfl⟩ := Option.map_eq_some_iff.1 h
  exact ⟨rfl, rfl⟩

/-- numbers come again only after 2^64 calls -/
theorem Numbered.nodup {st : St} (h : Numbered st) (hfew : st.issued.length ≤ 2 ^ 64) :
    (st.issued.map (·.id)).Nodup := by
  rw [h.issued]
  refine List.nodup_range.map_on fun i hi j hj heq => ?_
  rw [List.mem_range] at hi hj
  have hmod := congrArg UInt64.toNat heq
  rw [UInt64.toNat_ofNat', UInt64.toNat_ofNat'] at hmod
  omega

end Calls

/-- **Answers are classified.** What comes of an answer is what its class says, and each answer has one class. The result
is never null, and an answer that brings more than null for an error never brings a result. However calls follow one
another on a transport, their numbers differ up to 2^64 calls. -/
theorem answers_classified (method : String) (status : UInt16) (body : List UInt8) (x : Except Error Json) :
    ((Delivery.answered status body).result method = x ↔ Comes method status body x) ∧
    (Delivery.answered status body).result method ≠ .ok .null ∧
    (∀ d e, Json.Draft.ofBytes? body = some d → BringsError d e → e ≠ .null →
      ∀ v, (Delivery.answered status body).result method ≠ .ok v) ∧
    ∀ url limit st acts, Calls.new? url limit = some st → (Calls.run st acts).issued.length ≤ 2 ^ 64 →
      ((Calls.run st acts).issued.map (·.id)).Nodup := by
  refine ⟨result_eq_iff, ?_, ?_, ?_⟩
  · intro hnull
    cases result_eq_iff.1 hnull with
    | brought _ hbody _ hresult =>
      obtain ⟨d, -, hd⟩ := hbody
      exact hd.result_ne_null hresult
  · intro d e hdraft hbrings he v hv
    cases result_eq_iff.1 hv with
    | brought _ hbody herror _ =>
      obtain ⟨d', hdraft', hd⟩ := hbody
      obtain rfl := Option.some.inj (hdraft.symm.trans hdraft')
      exact hd.error_of_brings hbrings he herror
  · intro url limit st acts hnew hfew
    exact ((Calls.numbered_new hnew).run acts).nodup hfew

/-- an error beside a result, in an order of their own -/
example : (Delivery.answered 200 (Utf8.encode
    "\x7b\"result\":1,\"error\":\x7b\"code\":-1,\"message\":\"no\"\x7d,\"jsonrpc\":\"2.0\"\x7d".toList)).result
      "ftm_call" = .error (.remote (-1) "no") := by
  cbv

end ChainBridge.Rpc
