/-
Envelopes survive the wire.

A written envelope is a record of the members that were written (`record_drafted`), and each of them is the value that it
was written from; only null that may be missing is nothing. So the answer to a request that went well brings its result,
unless that is null, and the answer to one that failed brings its error: `envelopes_survive`.
-/
import Mathlib
import ChainBridge.Proofs.Json.Documents
import ChainBridge.Proofs.Rpc.Records
import ChainBridge.Rpc.Exchange

namespace ChainBridge.Rpc

open Text

/-! ## Members -/

theorem named_drafted (ms : List (String × Json)) :
    Named (Json.Draft.joinedMembers (Json.draftedMembers ms)) (ms.map fun m => (m.1, m.2.drafted.joined)) := by
  induction ms with
  | nil => exact .nil
  | cons m ms ih => exact .cons ⟨Json.textOf_join m.1, rfl⟩ ih

/-- a member stands under its name if no other has that name -/
theorem under_of_mem {named : List (String × Json.Draft)} (h : (named.map (·.1)).Nodup) {m : String × Json.Draft}
    (hm : m ∈ named) : Under named m.1 (some m.2) := by
  obtain ⟨before, after, rfl⟩ := List.append_of_mem hm
  rw [List.map_append, List.map_cons, List.nodup_append, List.nodup_cons] at h
  refine .present rfl (fun hbefore => ?_) h.2.1.1
  exact h.2.2 m.1 hbefore m.1 List.mem_cons_self rfl

/-- a written object is the record of its members -/
theorem record_drafted (ms : List (String × Json)) (h : (ms.map (·.1)).Nodup) :
    Record (ms.map (·.1)) (Json.object ms).drafted.joined (ms.map fun m => some m.2.drafted.joined) := by
  refine .byName (named_drafted ms) ?_
  rw [List.forall₂_map_left_iff, List.forall₂_map_right_iff, List.forall₂_same]
  intro m hm
  have hnodup : ((ms.map fun m => (m.1, m.2.drafted.joined)).map (·.1)).Nodup := by
    rwa [List.map_map]
  exact under_of_mem hnodup (List.mem_map_of_mem hm)

theorem isText_drafted (s : String) : IsText (some (Json.text s).drafted.joined) s := ⟨_, rfl, Json.textOf_join s⟩

theorem isInteger_drafted {i : Int} (hlow : -0x8000000000000000 ≤ i) (hhigh : i < 0x10000000000000000) :
    IsInteger (some (Json.integer i).drafted.joined) i := ⟨_, rfl, Json.Numeral.toJson?_numeral hlow hhigh⟩

theorem drafted_ne_null {v : Json} (h : v.isNull = false) : v.drafted.joined ≠ .null := by
  cases v with
  | null => exact absurd h (by decide)
  | bool b => simp [Json.drafted, Json.Draft.joined]
  | integer i => simp [Json.drafted, Json.Draft.joined]
  | float bits => simp [Json.drafted, Json.Draft.joined]
  | text s => simp [Json.drafted, Json.Draft.joined]
  | list items => simp [Json.drafted, Json.Draft.joined]
  | object members => simp [Json.drafted, Json.Draft.joined]

/-- null that may be missing is nothing, any other value is what it is -/
theorem maybe_drafted {α : Type} {reads : Json.Draft → α → Prop} {v : Json} {x : α}
    (hreads : reads v.drafted.joined x) :
    Maybe reads (some v.drafted.joined) (if v.isNull then none else some x) := by
  cases hnull : v.isNull with
  | true =>
    cases v with
    | null => exact .null
    | _ => exact absurd hnull (by simp [Json.isNull])
  | false => exact .value (drafted_ne_null hnull) hreads

/-! ## Envelopes -/

/-- a value that can be read back from where it stands within so many containers -/
structure Fits (v : Json) (outer : Nat) : Prop where
  whole : v.isWhole = true
  tidy : v.isTidy = true
  depth : v.depth + outer ≤ Json.maxDepth

theorem Fits.isValue {v : Json} {outer : Nat} (h : Fits v outer) : IsValue outer v.drafted.joined v :=
  Json.means _ v h.whole h.tidy (by have := h.depth; omega)

theorem fits_natural (id : UInt64) : Fits (.natural id.toNat) 1 := by
  have hlt := id.toNat_lt
  refine ⟨rfl, ?_, ?_⟩
  · simp only [Json.natural, Json.isTidy, Bool.and_eq_true, decide_eq_true_eq]
    omega
  · exact show 0 + 1 ≤ Json.maxDepth by decide

/-- of a value that may be missing, null is not read back -/
theorem maybe_value (value : Option Json) (outer : Nat) (h : ∀ v ∈ value, Fits v outer) :
    Maybe (IsValue outer) (some (value.getD .null).drafted.joined) (value.filter fun v => !v.isNull) := by
  cases value with
  | none => exact .null
  | some v =>
    have hvalue := maybe_drafted (h v rfl).isValue
    cases hnull : v.isNull with
    | true => simpa [Option.filter, hnull] using hvalue
    | false => simpa [Option.filter, hnull] using hvalue

theorem RequestEnvelope.ofDraft?_drafted (method : String) {params : Json} (id : UInt64) (h : Fits params 1) :
    ofDraft? (new method params id).toJson.drafted.joined = some (new method params id) := by
  have hlt := id.toNat_lt
  have hrecord := record_drafted [("jsonrpc", .text Rpc.version), ("method", .text method), ("params", params),
    ("id", .natural id.toNat)] (by simp)
  have hid : integer? 0 0xFFFFFFFFFFFFFFFF (some (Json.natural id.toNat).drafted.joined) = some (id.toNat : Int) :=
    integer?_eq_some_iff.2 ⟨isInteger_drafted (by omega) (by omega), by omega, by omega⟩
  have hread := record?_eq_some_iff.2 hrecord
  have hvalue : Json.ofDraft (Json.maxDepth - 1) params.drafted.joined = some params := h.isValue
  simp only [List.map_cons, List.map_nil] at hread
  rw [ofDraft?, toJson, new, hread]
  simp only [text?_eq_some_iff.2 (isText_drafted _), hvalue, hid, Option.bind_eq_bind, Option.bind_some,
    Option.pure_def, Int.toNat_natCast, UInt64.ofNat_toNat]

theorem isErrorObject_drafted (e : ErrorObject) (h : ∀ v ∈ e.data, Fits v 2) :
    IsErrorObject e.toJson.drafted.joined { e with data := e.data.filter fun v => !v.isNull } := by
  have hlow := e.code.le_toInt
  have hhigh := e.code.toInt_lt
  exact ⟨_, _, _, record_drafted [("code", .integer e.code.toInt), ("message", .text e.message),
    ("data", e.data.getD .null)] (by simp), isInteger_drafted (by omega) (by omega), isText_drafted e.message,
    maybe_value e.data 2 h⟩

/-- a written answer is the answer, but for values of null that may be missing -/
theorem isResponse_drafted (r : Response) (hresult : ∀ v ∈ r.result, Fits v 1)
    (herror : ∀ e ∈ r.error, ∀ v ∈ e.data, Fits v 2) (hid : Fits r.id 1) :
    IsResponse r.toJson.drafted.joined { r with
      result := r.result.filter fun v => !v.isNull
      error := r.error.map fun e => { e with data := e.data.filter fun v => !v.isNull } } := by
  have hrecord := record_drafted [("jsonrpc", .text r.version), ("result", r.result.getD .null),
    ("error", (r.error.map ErrorObject.toJson).getD .null), ("id", r.id)] (by simp)
  have hfailed : Maybe IsErrorObject (some ((r.error.map ErrorObject.toJson).getD .null).drafted.joined)
      (r.error.map fun e => { e with data := e.data.filter fun v => !v.isNull }) := by
    cases he : r.error with
    | none => exact .null
    | some e => exact maybe_drafted (isErrorObject_drafted e (herror e he))
  have hnumber := maybe_value (some r.id) 1 fun v hv => Option.some.inj hv ▸ hid
  refine ⟨_, _, _, _, _, hrecord, isText_drafted r.version, maybe_value r.result 1 hresult, hfailed, hnumber, ?_⟩
  cases r.id <;> rfl

/-! ## On the wire -/

/-- what is written reads as its draft, if there is no floating-point number in it -/
theorem ofBytes?_write {v : Json} (h : v.isWhole = true) :
    Json.Draft.ofBytes? (Utf8.encode v.compact.toList) = some v.drafted.joined := by
  rw [Json.compact, String.toList_ofList, Json.Draft.ofBytes?_compact h]

theorem RequestEnvelope.read?_write (method : String) {params : Json} (id : UInt64) (h : Fits params 1) :
    read? (new method params id).write.toList = some (new method params id) := by
  have hwhole : (new method params id).toJson.isWhole = true := by
    simp only [new, toJson, Json.natural, Json.isWhole, Json.haveWhole, h.whole, Bool.and_true]
  rw [read?, Json.Draft.read?, write, ofBytes?_write hwhole, Option.bind_some, ofDraft?_drafted method id h]

theorem Response.ofBytes?_failure (code : Int32) (message : String) (id : UInt64) :
    (Json.Draft.ofBytes? (Utf8.encode (failure code message id).write.toList)).bind ofDraft? =
      some (failure code message id) := by
  rw [write, ofBytes?_write rfl, Option.bind_some, ofDraft?_eq_some_iff]
  apply isResponse_drafted (failure code message id)
  · exact fun v hv => absurd hv (by simp [failure])
  · intro e he v hv
    rw [← Option.some.inj he] at hv
    exact absurd hv (by simp)
  · exact fits_natural id

theorem Response.ofBytes?_success {result : Json} (id : UInt64) (h : Fits result 1) :
    (Json.Draft.ofBytes? (Utf8.encode (success result id).write.toList)).bind ofDraft? =
      some { success result id with result := if result.isNull then none else some result } := by
  have hwhole : (success result id).toJson.isWhole = true := by
    simp only [success, toJson, Option.getD_some, Option.map_none, Option.getD_none, Json.natural, Json.isWhole,
      Json.haveWhole, h.whole, Bool.and_true]
  have hresult : ((some result).filter fun v => !v.isNull) = if result.isNull then none else some result := by
    cases hnull : result.isNull <;> simp [Option.filter, hnull]
  rw [write, ofBytes?_write hwhole, Option.bind_some, ofDraft?_eq_some_iff, ← hresult]
  apply isResponse_drafted (success result id)
  · intro v hv
    rwa [← Option.some.inj hv]
  · exact fun e he => absurd he (by simp [success])
  · exact fits_natural id

/-- **Envelopes survive the wire.** Let a value have no floating-point numbers, let it be held as values are (integers of
64 bits, members in order) and nested no more than fits an envelope. A request is read back from what it is written as,
and so is the answer to a request that failed; the answer to one that went well is read back but for a result of null,
which is none. Served with these answers, a request comes to the error, to the result, and for null to a decoding
failure. -/
theorem envelopes_survive (called method message : String) (v : Json) (code : Int32) (id : UInt64)
    (hwhole : v.isWhole = true) (htidy : v.isTidy = true) (hdepth : v.depth < Json.maxDepth) :
    RequestEnvelope.read? (RequestEnvelope.new method v id).write.toList = some (.new method v id) ∧
    Response.read? (Response.failure code message id).write.toList = some (.failure code message id) ∧
    Response.read? (Response.success v id).write.toList =
      some { Response.success v id with result := if v.isNull then none else some v } ∧
    (Delivery.answered 200 (Utf8.encode (Response.failure code message id).write.toList)).result called =
      .error (.remote code message) ∧
    (Delivery.answered 200 (Utf8.encode (Response.success v id).write.toList)).result called =
      if v.isNull then .error (.decode (called ++ " response carried no result")) else .ok v := by
  have h : Fits v 1 := ⟨hwhole, htidy, hdepth⟩
  have hbody : ∀ bytes, (Delivery.answered 200 bytes).result called = readBody called bytes := fun _ => rfl
  refine ⟨RequestEnvelope.read?_write method id h, Response.ofBytes?_failure code message id,
    Response.ofBytes?_success id h, ?_, ?_⟩
  · rw [hbody, readBody, Response.ofBytes?_failure]
    rfl
  · rw [hbody, readBody, Response.ofBytes?_success id h]
    cases v <;> rfl

/-- an object within a list, with the widest integer and with characters that are escaped or outside ASCII -/
theorem envelopes_survive_nested :
    let v : Json := .list [.integer 0xFFFFFFFFFFFFFFFF, .object [("", .null), ("µ", .text "\"\n\u0001")]]
    (v.isWhole = true ∧ v.isTidy = true ∧ v.depth < Json.maxDepth) ∧
    RequestEnvelope.read? (RequestEnvelope.new "ftm_call" v 7).write.toList = some (.new "ftm_call" v 7) ∧
    Response.read? (Response.failure (-32000) "reverted" 7).write.toList = some (.failure (-32000) "reverted" 7) ∧
    Response.read? (Response.success v 7).write.toList = some { Response.success v 7 with result := some v } ∧
    (Delivery.answered 200 (Utf8.encode (Response.failure (-32000) "reverted" 7).write.toList)).result "ftm_call" =
      .error (.remote (-32000) "reverted") ∧
    (Delivery.answered 200 (Utf8.encode (Response.success v 7).write.toList)).result "ftm_call" = .ok v := by
  have hwhole : (Json.list [.integer 0xFFFFFFFFFFFFFFFF,
    .object [("", .null), ("µ", .text "\"\n\u0001")]]).isWhole = true := rfl
  have htidy : (Json.list [.integer 0xFFFFFFFFFFFFFFFF,
    .object [("", .null), ("µ", .text "\"\n\u0001")]]).isTidy = true := by decide
  have hdepth : (Json.list [.integer 0xFFFFFFFFFFFFFFFF,
    .object [("", .null), ("µ", .text "\"\n\u0001")]]).depth < Json.maxDepth := by decide
  exact ⟨⟨hwhole, htidy, hdepth⟩,
    envelopes_survive "ftm_call" "ftm_call" "reverted" _ (-32000) 7 hwhole htidy hdepth⟩

end ChainBridge.Rpc
