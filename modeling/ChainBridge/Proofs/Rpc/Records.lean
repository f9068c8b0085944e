/-
What records hold, and which of them are answers.

A record is read by the names or by the places of its members. What it holds for each known name is said here of the
members as they stand in it (`Record`), and not of how they are looked for. The same for a member that is a text, an
integer, or may be missing, and from these for an answer: a draft is read as an answer exactly if it is one
(`Response.ofDraft?_eq_some_iff`).
-/
import Mathlib
import ChainBridge.Rpc.Envelope

namespace ChainBridge.Rpc

/-! ## Records -/

/-- members with their names as texts -/
def Named (ms : List (List Json.Piece × Json.Draft)) (named : List (String × Json.Draft)) : Prop :=
  List.Forall₂ (fun m n => Json.textOf m.1 = some n.1 ∧ m.2 = n.2) ms named

/-- what stands under a name: nothing, or a value under this name alone -/
inductive Under (named : List (String × Json.Draft)) (name : String) : Option Json.Draft → Prop where
  | absent (h : name ∉ named.map (·.1)) : Under named name none
  | present {before after : List (String × Json.Draft)} {d : Json.Draft} (h : named = before ++ (name, d) :: after)
      (hbefore : name ∉ before.map (·.1)) (hafter : name ∉ after.map (·.1)) : Under named name (some d)

/-- what a record holds for each of the names that are known -/
inductive Record (names : List String) : Json.Draft → List (Option Json.Draft) → Prop where
  | byName {ms : List (List Json.Piece × Json.Draft)} {named : List (String × Json.Draft)}
      {values : List (Option Json.Draft)} (hnamed : Named ms named)
      (hvalues : List.Forall₂ (Under named) names values) : Record names (.object ms) values
  | byPlace {items : List Json.Draft} {missing : Nat} (h : items.length + missing = names.length) :
      Record names (.list items) (items.map some ++ List.replicate missing none)

theorem mapM_eq_some_iff {α β : Type} {f : α → Option β} {xs : List α} {ys : List β} :
    xs.mapM f = some ys ↔ List.Forall₂ (fun x y => f x = some y) xs ys := by
  induction xs generalizing ys with
  | nil => cases ys <;> simp
  | cons x xs ih =>
    constructor
    · intro h
      simp only [List.mapM_cons, Option.bind_eq_bind, Option.pure_def, Option.bind_eq_some_iff, Option.some.injEq] at h
      obtain ⟨y, hy, ys, hys, rfl⟩ := h
      exact .cons hy (ih.1 hys)
    · intro h
      cases h with
      | cons hy hys =>
        rw [List.mapM_cons, hy, ih.2 hys]
        rfl

theorem member?_eq_some_iff {named : List (String × Json.Draft)} {name : String} {value : Option Json.Draft} :
    member? named name = some value ↔ Under named name value := by
  have hnone : ∀ l : List (String × Json.Draft), (l.filter fun m => m.1 == name) = [] ↔ name ∉ l.map (·.1) := by
    intro l
    rw [List.filter_eq_nil_iff, List.mem_map, not_exists]
    simp
  constructor
  · intro h
    unfold member? at h
    split at h
    · rename_i heq
      rw [← Option.some.inj h]
      exact .absent ((hnone named).1 heq)
    · rename_i m heq
      rw [← Option.some.inj h]
      obtain ⟨before, after, hsplit, hbefore, hm, hafter⟩ := List.filter_eq_cons_iff.1 heq
      obtain rfl : m.1 = name := eq_of_beq hm
      exact .present hsplit ((hnone before).1 (List.filter_eq_nil_iff.2 hbefore)) ((hnone after).1 hafter)
    · exact absurd h (by simp)
  · intro h
    unfold member?
    cases h with
    | absent h => rw [(hnone named).2 h]
    | present h hbefore hafter =>
      rw [h, List.filter_append, (hnone _).2 hbefore, List.nil_append, List.filter_cons, if_pos (beq_self_eq_true _),
        (hnone _).2 hafter]

theorem record?_eq_some_iff {names : List String} {d : Json.Draft} {values : List (Option Json.Draft)} :
    record? names d = some values ↔ Record names d values := by
  have hnamed : ∀ (ms : List (List Json.Piece × Json.Draft)) (named : List (String × Json.Draft)),
      (ms.mapM fun m => (Json.textOf m.1).map (·, m.2)) = some named ↔ Named ms named := by
    intro ms named
    rw [mapM_eq_some_iff]
    constructor
    · intro h
      refine h.imp fun m n hm => ?_
      obtain ⟨name, hname, rfl⟩ := Option.map_eq_some_iff.1 hm
      exact ⟨hname, rfl⟩
    · intro h
      refine h.imp fun m n hm => ?_
      rw [hm.1, hm.2, Option.map_some]
  constructor
  · intro h
    unfold record? at h
    split at h
    · simp only [Option.bind_eq_bind, Option.bind_eq_some_iff] at h
      obtain ⟨named, hread, hvalues⟩ := h
      exact .byName ((hnamed _ named).1 hread) ((mapM_eq_some_iff.1 hvalues).imp fun _ _ => member?_eq_some_iff.1)
    · split_ifs at h with hle
      rw [← Option.some.inj h]
      exact .byPlace (by omega)
    · exact absurd h (by simp)
  · intro h
    cases h with
    | byName hread hvalues =>
      rw [record?, (hnamed _ _).2 hread]
      exact mapM_eq_some_iff.2 (hvalues.imp fun _ _ => member?_eq_some_iff.2)
    | byPlace h => rw [record?, if_pos (by omega), ← h, Nat.add_sub_cancel_left]

/-! ## Members -/

/-- a member that must be there and is a text -/
def IsText (member : Option Json.Draft) (s : String) : Prop :=
  ∃ pieces, member = some (.text pieces) ∧ Json.textOf pieces = some s

/-- a member that must be there and is a number that means an integer -/
def IsInteger (member : Option Json.Draft) (i : Int) : Prop :=
  ∃ n, member = some (.number n) ∧ n.toJson? = some (.integer i)

/-- a member that may be absent or null -/
inductive Maybe {α : Type} (reads : Json.Draft → α → Prop) : Option Json.Draft → Option α → Prop where
  | absent : Maybe reads none none
  | null : Maybe reads (some .null) none
  | value {d : Json.Draft} {x : α} (hd : d ≠ .null) (h : reads d x) : Maybe reads (some d) (some x)

theorem text?_eq_some_iff {member : Option Json.Draft} {s : String} : text? member = some s ↔ IsText member s := by
  unfold text?
  split
  · rename_i pieces
    constructor
    · exact fun h => ⟨pieces, rfl, h⟩
    · rintro ⟨pieces', heq, h⟩
      cases heq
      exact h
  · rename_i hno
    constructor
    · exact fun h => absurd h (by simp)
    · rintro ⟨pieces, rfl, -⟩
      exact absurd rfl (hno pieces)

theorem integer?_eq_some_iff {low high i : Int} {member : Option Json.Draft} :
    integer? low high member = some i ↔ IsInteger member i ∧ low ≤ i ∧ i ≤ high := by
  constructor
  · intro h
    unfold integer? at h
    split at h
    · rename_i n
      split at h
      · rename_i j hj
        split_ifs at h with hbounds
        rw [← Option.some.inj h]
        exact ⟨⟨n, rfl, hj⟩, hbounds⟩
      · exact absurd h (by simp)
    · exact absurd h (by simp)
  · rintro ⟨⟨n, rfl, hn⟩, hbounds⟩
    simp only [integer?, hn, if_pos hbounds]

theorem optional?_eq_some_iff {α : Type} {read : Json.Draft → Option α} {member : Option Json.Draft} {x : Option α} :
    optional? read member = some x ↔ Maybe (fun d y => read d = some y) member x := by
  constructor
  · intro h
    unfold optional? at h
    split at h
    · rw [← Option.some.inj h]
      exact .absent
    · rw [← Option.some.inj h]
      exact .null
    · rename_i d hd
      obtain ⟨y, hy, rfl⟩ := Option.map_eq_some_iff.1 h
      exact .value hd hy
  · intro h
    cases h with
    | absent => rfl
    | null => rfl
    | value hd h =>
      unfold optional?
      split
      · rename_i heq
        exact absurd heq (by simp)
      · rename_i heq
        exact absurd (Option.some.inj heq) hd
      · rename_i heq
        rw [← Option.some.inj heq, h, Option.map_some]

theorem Maybe.imp {α : Type} {reads reads' : Json.Draft → α → Prop} (h : ∀ d x, reads d x → reads' d x)
    {member : Option Json.Draft} {x : Option α} (hm : Maybe reads member x) : Maybe reads' member x := by
  cases hm with
  | absent => exact .absent
  | null => exact .null
  | value hd hx => exact .value hd (h _ _ hx)

/-! ## Answers -/

/-- a value with so many containers around it -/
def IsValue (outer : Nat) (d : Json.Draft) (v : Json) : Prop := Json.ofDraft (Json.maxDepth - outer) d = some v

def IsErrorObject (d : Json.Draft) (e : ErrorObject) : Prop :=
  ∃ code message data, Record ["code", "message", "data"] d [code, message, data] ∧ IsInteger code e.code.toInt ∧
    IsText message e.message ∧ Maybe (IsValue 2) data e.data

def IsResponse (d : Json.Draft) (r : Response) : Prop :=
  ∃ version result error id number, Record ["jsonrpc", "result", "error", "id"] d [version, result, error, id] ∧
    IsText version r.version ∧ Maybe (IsValue 1) result r.result ∧ Maybe IsErrorObject error r.error ∧
    Maybe (IsValue 1) id number ∧ r.id = number.getD .null

theorem ErrorObject.ofDraft?_eq_some_iff {d : Json.Draft} {e : ErrorObject} :
    ofDraft? d = some e ↔ IsErrorObject d e := by
  constructor
  · intro h
    simp only [ofDraft?, Option.bind_eq_bind, Option.bind_eq_some_iff] at h
    obtain ⟨values, hrecord, h⟩ := h
    split at h
    · rename_i code message data
      simp only [Option.bind_eq_some_iff, Option.pure_def, Option.some.injEq] at h
      obtain ⟨i, hcode, m, hmessage, v, hdata, rfl⟩ := h
      obtain ⟨hi, hlow, hhigh⟩ := integer?_eq_some_iff.1 hcode
      refine ⟨code, message, data, record?_eq_some_iff.1 hrecord, ?_, text?_eq_some_iff.1 hmessage,
        optional?_eq_some_iff.1 hdata⟩
      rwa [Int32.toInt_ofInt_of_le hlow (by omega)]
    · exact absurd h (by simp)
  · rintro ⟨code, message, data, hrecord, hcode, hmessage, hdata⟩
    have hlow := e.code.le_toInt
    have hhigh := e.code.toInt_lt
    have hinteger := integer?_eq_some_iff.2 ⟨hcode, show -0x80000000 ≤ e.code.toInt by omega,
      show e.code.toInt ≤ 0x7FFFFFFF by omega⟩
    rw [ofDraft?, record?_eq_some_iff.2 hrecord]
    simp only [hinteger, text?_eq_some_iff.2 hmessage, optional?_eq_some_iff.2 hdata, Option.bind_eq_bind,
      Option.bind_some, Option.pure_def, Int32.ofInt_toInt]

/-- a draft is read as the answer that it is, and as nothing else -/
theorem Response.ofDraft?_eq_some_iff {d : Json.Draft} {r : Response} : ofDraft? d = some r ↔ IsResponse d r := by
  constructor
  · intro h
    simp only [ofDraft?, Option.bind_eq_bind, Option.bind_eq_some_iff] at h
    obtain ⟨values, hrecord, h⟩ := h
    split at h
    · rename_i version result error id
      simp only [Option.bind_eq_some_iff, Option.pure_def, Option.some.injEq] at h
      obtain ⟨s, hversion, v, hresult, e, herror, number, hid, rfl⟩ := h
      exact ⟨version, result, error, id, number, record?_eq_some_iff.1 hrecord, text?_eq_some_iff.1 hversion,
        optional?_eq_some_iff.1 hresult,
        (optional?_eq_some_iff.1 herror).imp fun _ _ => ErrorObject.ofDraft?_eq_some_iff.1,
        optional?_eq_some_iff.1 hid, rfl⟩
    · exact absurd h (by simp)
  · rintro ⟨version, result, error, id, number, hrecord, hversion, hresult, herror, hid, hnumber⟩
    have hfailed := optional?_eq_some_iff.2 (herror.imp fun _ _ => ErrorObject.ofDraft?_eq_some_iff.2)
    rw [ofDraft?, record?_eq_some_iff.2 hrecord]
    simp only [text?_eq_some_iff.2 hversion, optional?_eq_some_iff.2 hresult, hfailed, optional?_eq_some_iff.2 hid,
      ← hnumber, Option.bind_eq_bind, Option.bind_some, Option.pure_def]

end ChainBridge.Rpc
