/-
Written values are read back.

The reader goes through a written value, its items or its members one after the other and spends fuel on the way; what
a byte costs is more than what it is read with (`ReadsBack`, by induction on the fuel). The draft that comes of it
means the value again (`Means`, by induction on the room for containers), if the value has no floating-point numbers,
its integers fit 64 bits and the members of its objects stand in order: `parse?_compact`.
-/
import Mathlib
import ChainBridge.Proofs.Json.Tokens

namespace ChainBridge.Json

open Text

/-! ## Values -/

mutual

/-- whether no floating-point number stands anywhere in a value -/
def isWhole : Json → Bool
  | .float _ => false
  | .list items => areWhole items
  | .object members => haveWhole members
  | _ => true

def areWhole : List Json → Bool
  | [] => true
  | v :: vs => v.isWhole && areWhole vs

def haveWhole : List (String × Json) → Bool
  | [] => true
  | (_, v) :: ms => v.isWhole && haveWhole ms

end

mutual

/-- whether integers fit 64 bits, with a sign or without, and the members of every object stand in order, no two of
them under one name -/
def isTidy : Json → Bool
  | .integer i => -0x8000000000000000 ≤ i && i < 0x10000000000000000
  | .list items => areTidy items
  | .object members => decide ((members.map (·.1)).Pairwise (· < ·)) && haveTidy members
  | _ => true

def areTidy : List Json → Bool
  | [] => true
  | v :: vs => v.isTidy && areTidy vs

def haveTidy : List (String × Json) → Bool
  | [] => true
  | (_, v) :: ms => v.isTidy && haveTidy ms

end

mutual

/-- how many containers stand one inside the other -/
def depth : Json → Nat
  | .list items => depthOf items + 1
  | .object members => depthIn members + 1
  | _ => 0

def depthOf : List Json → Nat
  | [] => 0
  | v :: vs => max v.depth (depthOf vs)

def depthIn : List (String × Json) → Nat
  | [] => 0
  | (_, v) :: ms => max v.depth (depthIn ms)

end

/-! ## Reading what has been written -/

mutual

/-- the draft that a written value is read as, byte by byte -/
def drafted : Json → Draft
  | .null => .null
  | .bool b => .bool b
  | .integer i => .number (numeral i)
  | .float _ => .number ⟨false, [], none, none⟩
  | .text s => .text (s.toList.flatMap spelled)
  | .list items => .list (draftedItems items)
  | .object members => .object (draftedMembers members)

def draftedItems : List Json → List Draft
  | [] => []
  | v :: vs => v.drafted :: draftedItems vs

def draftedMembers : List (String × Json) → List (List Piece × Draft)
  | [] => []
  | (n, v) :: ms => (n.toList.flatMap spelled, v.drafted) :: draftedMembers ms

end

namespace Draft

theorem octets_quote (s : String) : Utf8.octets (quote s) = '"' :: Utf8.octets (s.toList.flatMap escape) ++ ['"'] := by
  rw [quote, List.cons_append, Utf8.octets_cons_ascii (by decide), Utf8.octets_append]
  rfl

theorem octets_integerText (i : Int) : Utf8.octets (integerText i) = integerText i := by
  have hdigits : ∀ c ∈ Decimal.naturalDigits i.natAbs, c.toNat < 0x80 := by
    intro c hc
    have hdigit := naturalDigits_digit hc
    simp only [Char.isDigit, Bool.and_eq_true, decide_eq_true_eq] at hdigit
    have hle : c.val.toNat ≤ 57 := hdigit.2
    show c.val.toNat < 0x80
    omega
  unfold integerText
  split_ifs
  · rw [Utf8.octets_cons_ascii (by decide), Utf8.octets_ascii hdigits]
  · exact Utf8.octets_ascii hdigits

/-! ### The bytes of containers, before what follows them -/

theorem octets_list (v : Json) (vs : List Json) (r : List Char) :
    Utf8.octets (compactChars (.list (v :: vs))) ++ r =
      '[' :: (Utf8.octets v.compactChars ++ (Utf8.octets (compactItems vs) ++ ']' :: r)) := by
  rw [compactChars, List.cons_append, List.cons_append, Utf8.octets_cons_ascii (by decide), Utf8.octets_append,
    Utf8.octets_append, show Utf8.octets [']'] = [']'] from rfl]
  simp only [List.cons_append, List.append_assoc, List.nil_append]

theorem octets_items (v : Json) (vs : List Json) (r : List Char) :
    Utf8.octets (compactItems (v :: vs)) ++ r =
      ',' :: (Utf8.octets v.compactChars ++ (Utf8.octets (compactItems vs) ++ r)) := by
  rw [compactItems, List.cons_append, Utf8.octets_cons_ascii (by decide), Utf8.octets_append]
  simp only [List.cons_append, List.append_assoc]

theorem octets_member (n : String) (v : Json) (ms : List (String × Json)) (r : List Char) :
    Utf8.octets (quote n ++ ':' :: v.compactChars ++ compactMembers ms) ++ r =
      '"' :: (Utf8.octets (n.toList.flatMap escape) ++
        '"' :: ':' :: (Utf8.octets v.compactChars ++ (Utf8.octets (compactMembers ms) ++ r))) := by
  rw [Utf8.octets_append, Utf8.octets_append, octets_quote, Utf8.octets_cons_ascii (by decide)]
  simp only [List.cons_append, List.append_assoc, List.nil_append]

theorem octets_object (n : String) (v : Json) (ms : List (String × Json)) (r : List Char) :
    Utf8.octets (compactChars (.object ((n, v) :: ms))) ++ r =
      '\x7b' :: (Utf8.octets (quote n ++ ':' :: v.compactChars ++ compactMembers ms) ++ '\x7d' :: r) := by
  rw [compactChars, List.cons_append, List.cons_append, List.cons_append, Utf8.octets_cons_ascii (by decide),
    Utf8.octets_append _ ['\x7d'], show Utf8.octets ['\x7d'] = ['\x7d'] from rfl]
  simp only [List.cons_append, List.append_assoc, List.nil_append]

theorem octets_members (n : String) (v : Json) (ms : List (String × Json)) (r : List Char) :
    Utf8.octets (compactMembers ((n, v) :: ms)) ++ r =
      ',' :: (Utf8.octets (quote n ++ ':' :: v.compactChars ++ compactMembers ms) ++ r) := by
  rw [compactMembers, List.cons_append, List.cons_append, Utf8.octets_cons_ascii (by decide)]
  rfl

/-- what a number starts with -/
def OpensNumber (c : Char) : Prop := c.isDigit = true ∨ c = '-'

theorem numeral_ne {c : Char} (h : OpensNumber c) {d : Char} (hd : d.isDigit = false) (hminus : d ≠ '-') : c ≠ d := by
  rintro rfl
  rcases h with h | h
  · exact absurd (hd.symm.trans h) (by decide)
  · exact hminus h

theorem isBlank_numeral {c : Char} (h : OpensNumber c) : isBlank c = false := by
  simp only [isBlank, Bool.or_eq_false_iff, beq_eq_false_iff_ne]
  exact ⟨⟨⟨numeral_ne h (by decide) (by decide), numeral_ne h (by decide) (by decide)⟩,
    numeral_ne h (by decide) (by decide)⟩, numeral_ne h (by decide) (by decide)⟩

theorem integerText_head (i : Int) : ∃ c r, integerText i = c :: r ∧ OpensNumber c := by
  unfold integerText
  split_ifs
  · exact ⟨'-', _, rfl, Or.inr rfl⟩
  · cases hds : Decimal.naturalDigits i.natAbs with
    | nil => exact absurd hds (naturalDigits_ne_nil _)
    | cons d ds => exact ⟨d, ds, rfl, Or.inl (naturalDigits_digit (by rw [hds]; exact List.mem_cons_self))⟩

/-- what a written value starts with -/
theorem octets_compactChars_head (v : Json) (hv : v.isWhole = true) :
    ∃ c r, Utf8.octets v.compactChars = c :: r ∧ isBlank c = false ∧ c ≠ ']' := by
  cases v with
  | null => exact ⟨'n', _, rfl, rfl, by decide⟩
  | bool b =>
    cases b with
    | false => exact ⟨'f', _, rfl, rfl, by decide⟩
    | true => exact ⟨'t', _, rfl, rfl, by decide⟩
  | integer i =>
    obtain ⟨c, r, heq, hc⟩ := integerText_head i
    rw [compactChars, octets_integerText]
    exact ⟨c, r, heq, isBlank_numeral hc, numeral_ne hc (by decide) (by decide)⟩
  | float bits => simp [isWhole] at hv
  | text s =>
    rw [compactChars, octets_quote]
    exact ⟨'"', _, rfl, rfl, by decide⟩
  | list items =>
    cases items with
    | nil => exact ⟨'[', _, rfl, rfl, by decide⟩
    | cons v vs =>
      have hlist := octets_list v vs []
      rw [List.append_nil] at hlist
      exact ⟨'[', _, hlist, rfl, by decide⟩
  | object members =>
    cases members with
    | nil => exact ⟨'\x7b', _, rfl, rfl, by decide⟩
    | cons m ms =>
      have hobject := octets_object m.1 m.2 ms []
      rw [List.append_nil] at hobject
      exact ⟨'\x7b', _, hobject, rfl, by decide⟩

theorem readValue_numeral {c : Char} (h : OpensNumber c) (fuel : Nat) (r : List Char) :
    readValue (fuel + 1) (c :: r) = (readNumeral (c :: r)).map fun p => (.number p.1, p.2) := by
  have hblank : skipBlank (c :: r) = c :: r := by
    rw [skipBlank, isBlank_numeral h]
    rfl
  rw [readValue, hblank]
  split
  · rename_i heq
    exact absurd (List.cons.inj heq).1 (numeral_ne h (by decide) (by decide))
  · rename_i heq
    exact absurd (List.cons.inj heq).1 (numeral_ne h (by decide) (by decide))
  · rename_i heq
    exact absurd (List.cons.inj heq).1 (numeral_ne h (by decide) (by decide))
  · rename_i heq
    exact absurd (List.cons.inj heq).1 (numeral_ne h (by decide) (by decide))
  · rename_i heq
    exact absurd (List.cons.inj heq).1 (numeral_ne h (by decide) (by decide))
  · rename_i heq
    exact absurd (List.cons.inj heq).1 (numeral_ne h (by decide) (by decide))
  · rfl

theorem skipBlank_compact {v : Json} (hv : v.isWhole = true) (r : List Char) :
    skipBlank (Utf8.octets v.compactChars ++ r) = Utf8.octets v.compactChars ++ r := by
  obtain ⟨c, cs, heq, hblank, -⟩ := octets_compactChars_head v hv
  rw [heq, List.cons_append, skipBlank, hblank]
  rfl

theorem readValue_list {v : Json} (hv : v.isWhole = true) (fuel : Nat) (r : List Char) :
    readValue (fuel + 1) ('[' :: (Utf8.octets v.compactChars ++ r)) =
      (readItems fuel (Utf8.octets v.compactChars ++ r)).map fun p => (.list p.1, p.2) := by
  obtain ⟨c, cs, heq, -, hne⟩ := octets_compactChars_head v hv
  rw [readValue]
  simp only [show ∀ r, skipBlank ('[' :: r) = '[' :: r from fun _ => rfl, skipBlank_compact hv]
  rw [heq, List.cons_append]
  split
  · rename_i hclose
    exact absurd (List.cons.inj hclose).1 hne
  · rfl

theorem readValue_object (fuel : Nat) (r : List Char) :
    readValue (fuel + 1) ('\x7b' :: '"' :: r) = (readMembers fuel ('"' :: r)).map fun p => (.object p.1, p.2) := by
  rw [readValue]
  rfl

theorem ends_items (vs : List Json) (r : List Char) : Ends (Utf8.octets (compactItems vs) ++ ']' :: r) := by
  cases vs with
  | nil => exact ends_cons (by decide) r
  | cons v vs =>
    rw [octets_items]
    exact ends_cons (by decide) _

theorem ends_members (ms : List (String × Json)) (r : List Char) :
    Ends (Utf8.octets (compactMembers ms) ++ '\x7d' :: r) := by
  cases ms with
  | nil => exact ends_cons (by decide) r
  | cons m ms =>
    rw [octets_members]
    exact ends_cons (by decide) _

/-- with this much fuel, what has been written is read back -/
structure ReadsBack (fuel : Nat) : Prop where
  value : ∀ (v : Json) (r : List Char), v.isWhole = true → 2 * (Utf8.octets v.compactChars).length ≤ fuel → Ends r →
    readValue fuel (Utf8.octets v.compactChars ++ r) = some (v.drafted, r)
  items : ∀ (v : Json) (vs : List Json) (r : List Char), v.isWhole = true → areWhole vs = true →
    2 * ((Utf8.octets v.compactChars).length + (Utf8.octets (compactItems vs)).length) + 1 ≤ fuel →
    readItems fuel (Utf8.octets v.compactChars ++ (Utf8.octets (compactItems vs) ++ ']' :: r)) =
      some (v.drafted :: draftedItems vs, r)
  members : ∀ (n : String) (v : Json) (ms : List (String × Json)) (r : List Char), v.isWhole = true →
    haveWhole ms = true →
    2 * (Utf8.octets (quote n ++ ':' :: v.compactChars ++ compactMembers ms)).length + 1 ≤ fuel →
    readMembers fuel (Utf8.octets (quote n ++ ':' :: v.compactChars ++ compactMembers ms) ++ '\x7d' :: r) =
      some ((n.toList.flatMap spelled, v.drafted) :: draftedMembers ms, r)

theorem ReadsBack.value_step {fuel : Nat} (h : ReadsBack fuel) (v : Json) (r : List Char) (hv : v.isWhole = true)
    (hfuel : 2 * (Utf8.octets v.compactChars).length ≤ fuel + 1) (hr : Ends r) :
    readValue (fuel + 1) (Utf8.octets v.compactChars ++ r) = some (v.drafted, r) := by
  cases v with
  | null => rfl
  | bool b => cases b <;> rfl
  | integer i =>
    obtain ⟨d, ds, hdigits, hd⟩ := integerText_head i
    have hread := readNumeral_integer i hr
    rw [hdigits, List.cons_append] at hread
    rw [compactChars, octets_integerText, hdigits, List.cons_append, readValue_numeral hd, hread]
    rfl
  | float bits => simp [isWhole] at hv
  | text s =>
    have hread := readText_escapes s.toList r
    rw [compactChars, octets_quote, List.cons_append, List.cons_append, List.append_assoc, List.singleton_append,
      readValue]
    simp only [show ∀ r, skipBlank ('"' :: r) = '"' :: r from fun _ => rfl, hread]
    rfl
  | list items =>
    cases items with
    | nil => rfl
    | cons v vs =>
      simp only [isWhole, areWhole, Bool.and_eq_true] at hv
      have hlength := congrArg List.length (octets_list v vs [])
      simp only [List.append_nil, List.length_cons, List.length_append, List.length_nil] at hlength
      rw [octets_list, readValue_list hv.1, h.items v vs r hv.1 hv.2 (by omega)]
      rfl
  | object members =>
    cases members with
    | nil => rfl
    | cons m ms =>
      obtain ⟨n, v⟩ := m
      simp only [isWhole, haveWhole, Bool.and_eq_true] at hv
      have hlength := congrArg List.length (octets_object n v ms [])
      simp only [List.append_nil, List.length_cons, List.length_append, List.length_nil] at hlength
      rw [octets_object, octets_member, readValue_object, ← octets_member, h.members n v ms r hv.1 hv.2 (by omega)]
      rfl

theorem ReadsBack.items_step {fuel : Nat} (h : ReadsBack fuel) (v : Json) (vs : List Json) (r : List Char)
    (hv : v.isWhole = true) (hvs : areWhole vs = true)
    (hfuel : 2 * ((Utf8.octets v.compactChars).length + (Utf8.octets (compactItems vs)).length) + 1 ≤ fuel + 1) :
    readItems (fuel + 1) (Utf8.octets v.compactChars ++ (Utf8.octets (compactItems vs) ++ ']' :: r)) =
      some (v.drafted :: draftedItems vs, r) := by
  rw [readItems, h.value v _ hv (by omega) (ends_items vs r)]
  simp only [Option.bind_eq_bind, Option.bind_some]
  cases vs with
  | nil => rfl
  | cons w ws =>
    simp only [areWhole, Bool.and_eq_true] at hvs
    have hlength := congrArg List.length (octets_items w ws [])
    simp only [List.append_nil, List.length_cons, List.length_append] at hlength
    have hrest := h.items w ws r hvs.1 hvs.2 (by omega)
    rw [octets_items]
    simp only [show ∀ r, skipBlank (',' :: r) = ',' :: r from fun _ => rfl, hrest]
    rfl

theorem ReadsBack.members_step {fuel : Nat} (h : ReadsBack fuel) (n : String) (v : Json) (ms : List (String × Json))
    (r : List Char) (hv : v.isWhole = true) (hms : haveWhole ms = true)
    (hfuel : 2 * (Utf8.octets (quote n ++ ':' :: v.compactChars ++ compactMembers ms)).length + 1 ≤ fuel + 1) :
    readMembers (fuel + 1) (Utf8.octets (quote n ++ ':' :: v.compactChars ++ compactMembers ms) ++ '\x7d' :: r) =
      some ((n.toList.flatMap spelled, v.drafted) :: draftedMembers ms, r) := by
  have hlength := congrArg List.length (octets_member n v ms [])
  simp only [List.append_nil, List.length_cons, List.length_append] at hlength
  have hname := readText_escapes n.toList
  have hvalue := h.value v _ hv (by omega) (ends_members ms r)
  rw [octets_member, readMembers]
  simp only [show ∀ r, skipBlank ('"' :: r) = '"' :: r from fun _ => rfl, hname, Option.bind_eq_bind,
    Option.bind_some, show ∀ r, skipBlank (':' :: r) = ':' :: r from fun _ => rfl, hvalue]
  cases ms with
  | nil => rfl
  | cons m ms =>
    obtain ⟨n', w⟩ := m
    simp only [haveWhole, Bool.and_eq_true] at hms
    have hlength' := congrArg List.length (octets_members n' w ms [])
    simp only [List.append_nil, List.length_cons] at hlength'
    have hrest := h.members n' w ms r hms.1 hms.2 (by omega)
    rw [octets_members]
    simp only [show ∀ r, skipBlank (',' :: r) = ',' :: r from fun _ => rfl, hrest]
    rfl

theorem readsBack (fuel : Nat) : ReadsBack fuel := by
  induction fuel with
  | zero =>
    refine ⟨?_, fun _ _ _ _ _ hfuel => absurd hfuel (by omega), fun _ _ _ _ _ _ hfuel => absurd hfuel (by omega)⟩
    intro v r hv hfuel
    obtain ⟨c, cs, heq, -, -⟩ := octets_compactChars_head v hv
    rw [heq, List.length_cons] at hfuel
    omega
  | succ fuel ih => exact ⟨ih.value_step, ih.items_step, ih.members_step⟩

/-- the bytes of a written value are read as its draft -/
theorem ofBytes?_compact {v : Json} (hv : v.isWhole = true) :
    ofBytes? (Utf8.encode v.compactChars) = some v.drafted.joined := by
  have hread := (readsBack (2 * (Utf8.octets v.compactChars).length + 2)).value v [] hv (by omega) ends_nil
  rw [List.append_nil] at hread
  rw [ofBytes?, show (Utf8.encode v.compactChars).map Utf8.octet = Utf8.octets v.compactChars from rfl, scan?, hread]
  rfl

end Draft

/-! ## What written values mean -/

/-- a table in order stays as it is -/
theorem insertMember_last (n : String) (v : Json) {table : List (String × Json)} (h : ∀ m ∈ table, m.1 < n) :
    insertMember n v table = table ++ [(n, v)] := by
  induction table with
  | nil => rfl
  | cons m table ih =>
    have hlt : m.1 < n := h m List.mem_cons_self
    have hne : n ≠ m.1 := by
      intro heq
      rw [heq] at hlt
      exact absurd hlt (lt_irrefl _)
    rw [insertMember, if_neg hne, if_neg (not_lt_of_gt hlt), ih fun x hx => h x (List.mem_cons_of_mem m hx)]
    rfl

/-- putting members in order into a table that they follow adds them to it -/
theorem foldl_insertMember {table ms : List (String × Json)} (h : ((table ++ ms).map (·.1)).Pairwise (· < ·)) :
    ms.foldl (fun table m => insertMember m.1 m.2 table) table = table ++ ms := by
  induction ms generalizing table with
  | nil => rw [List.foldl_nil, List.append_nil]
  | cons m ms ih =>
    have hlast : ∀ x ∈ table, x.1 < m.1 := by
      intro x hx
      rw [List.map_append, List.pairwise_append] at h
      exact h.2.2 x.1 (List.mem_map_of_mem hx) m.1 (List.mem_map_of_mem List.mem_cons_self)
    rw [List.foldl_cons, insertMember_last m.1 m.2 hlast, ih, List.append_assoc, List.singleton_append]
    rwa [List.append_assoc, List.singleton_append]

/-- members in order are their own table -/
theorem ofMembers_sorted {ms : List (String × Json)} (h : (ms.map (·.1)).Pairwise (· < ·)) :
    ofMembers ms = .object ms := by
  have hfold : ms.foldl (fun table m => insertMember m.1 m.2 table) [] = [] ++ ms := foldl_insertMember h
  rw [ofMembers, sortMembers, hfold, List.nil_append]

/-- with room for so many containers, what has been written means what it was written from -/
def Means (room : Nat) : Prop :=
  ∀ v : Json, v.isWhole = true → v.isTidy = true → v.depth ≤ room → ofDraft room v.drafted.joined = some v

theorem Means.items {room : Nat} (h : Means room) {vs : List Json} (hw : areWhole vs = true) (ht : areTidy vs = true)
    (hd : depthOf vs ≤ room) : ofItems room (Draft.joinedItems (draftedItems vs)) = some vs := by
  induction vs with
  | nil => rfl
  | cons v vs ih =>
    simp only [areWhole, Bool.and_eq_true] at hw
    simp only [areTidy, Bool.and_eq_true] at ht
    simp only [depthOf, max_le_iff] at hd
    simp only [draftedItems, Draft.joinedItems, ofItems, h v hw.1 ht.1 hd.1, ih hw.2 ht.2 hd.2, Option.bind_eq_bind,
      Option.bind_some, Option.pure_def]

theorem Means.members {room : Nat} (h : Means room) {ms : List (String × Json)} (hw : haveWhole ms = true)
    (ht : haveTidy ms = true) (hd : depthIn ms ≤ room) :
    ofMemberDrafts room (Draft.joinedMembers (draftedMembers ms)) = some ms := by
  induction ms with
  | nil => rfl
  | cons m ms ih =>
    simp only [haveWhole, Bool.and_eq_true] at hw
    simp only [haveTidy, Bool.and_eq_true] at ht
    simp only [depthIn, max_le_iff] at hd
    simp only [draftedMembers, Draft.joinedMembers, ofMemberDrafts, textOf_join, h m.2 hw.1 ht.1 hd.1,
      ih hw.2 ht.2 hd.2, Option.bind_eq_bind, Option.bind_some, Option.pure_def]

theorem ofDraft_flat (room : Nat) {v : Json} (hw : v.isWhole = true) (ht : v.isTidy = true) (hd : v.depth = 0) :
    ofDraft room v.drafted.joined = some v := by
  cases v with
  | null => rfl
  | bool b => rfl
  | integer i =>
    simp only [isTidy, Bool.and_eq_true, decide_eq_true_eq] at ht
    exact Numeral.toJson?_numeral ht.1 ht.2
  | float bits => simp [isWhole] at hw
  | text s => simp only [drafted, Draft.joined, ofDraft, textOf_join, Option.map_some]
  | list items => simp [depth] at hd
  | object members => simp [depth] at hd

theorem means (room : Nat) : Means room := by
  induction room with
  | zero => exact fun v hw ht hd => ofDraft_flat 0 hw ht (Nat.le_zero.1 hd)
  | succ room ih =>
    intro v hw ht hd
    by_cases hflat : v.depth = 0
    · exact ofDraft_flat (room + 1) hw ht hflat
    cases v with
    | list items =>
      simp only [depth, Nat.add_le_add_iff_right] at hd
      simp only [drafted, Draft.joined, ofDraft, ih.items hw ht hd, Option.map_some]
    | object members =>
      simp only [isTidy, Bool.and_eq_true, decide_eq_true_eq] at ht
      simp only [depth, Nat.add_le_add_iff_right] at hd
      simp only [drafted, Draft.joined, ofDraft, ih.members hw ht.2 hd, Option.map_some, ofMembers_sorted ht.1]
    | null => exact absurd rfl hflat
    | bool b => exact absurd rfl hflat
    | integer i => exact absurd rfl hflat
    | float bits => exact absurd rfl hflat
    | text s => exact absurd rfl hflat

/-- **Values are read back.** A value without floating-point numbers, in which integers fit and members are in order,
is read back from its text if it is not nested too deeply. -/
theorem parse?_compact {v : Json} (hw : v.isWhole = true) (ht : v.isTidy = true) (hd : v.depth ≤ maxDepth) :
    parse? v.compact = some v := by
  rw [parse?, compact, String.toList_ofList, Draft.read?, Draft.ofBytes?_compact hw, Option.bind_some]
  exact means maxDepth v hw ht hd

end ChainBridge.Json
