/-
What is kept of the text of a failure.

A text of more than 256 bytes is cut at the last place up to byte 256 where a character ends, and a mark is put behind
it. That place is searched for backwards, one byte in each turn. A `Search` may also go wrong: from the first byte there
is no way back. `Search.after_eq` says where it stands after any number of turns, and that it never goes wrong in the
bytes of a text. As no character has more than four bytes, the search goes back by three at most.

- `failures_keep_characters`: what is kept of each failure, and how the place to cut it is found.
-/
import Mathlib
import ChainBridge.Proofs.Rpc.Answers

namespace ChainBridge

namespace Text.Utf8

/-! ## The search for a place to cut -/

/-- where a search stands -/
inductive Search where
  /-- at a byte that is still to be looked at -/
  | looking (i : Nat)
  | found (i : Nat)
  /-- it would have to go back from the first byte -/
  | underflow
deriving DecidableEq, Repr

namespace Search

/-- the byte before -/
def back : Nat → Search
  | 0 => .underflow
  | i + 1 => .looking i

/-- one turn: the search ends at a boundary, and goes back by one byte otherwise -/
def turn (bytes : List UInt8) : Search → Search
  | .looking i => if isBoundary bytes i then .found i else back i
  | s => s

/-- where the search that begins at byte `i` stands after some turns -/
def after (bytes : List UInt8) (i : Nat) : Nat → Search
  | 0 => .looking i
  | turns + 1 => (after bytes i turns).turn bytes

variable {bytes : List UInt8} {i : Nat}

theorem turn_boundary (h : isBoundary bytes i = true) : turn bytes (.looking i) = .found i := by
  rw [turn, if_pos h]

theorem turn_back (h : isBoundary bytes (i + 1) = false) : turn bytes (.looking (i + 1)) = .looking i := by
  rw [turn, h, if_neg Bool.false_ne_true, back]

/-- a search goes back to the nearest boundary and stays there -/
theorem after_eq (hfirst : isBoundary bytes 0 = true) (turns : Nat) :
    after bytes i turns =
      if turns ≤ i - boundary bytes i then .looking (i - turns) else .found (boundary bytes i) := by
  have hle := boundary_le bytes i
  induction turns with
  | zero => rw [after, if_pos (Nat.zero_le _), Nat.sub_zero]
  | succ turns ih =>
    rw [after, ih]
    rcases Nat.lt_trichotomy turns (i - boundary bytes i) with hlt | heq | hgt
    · -- no boundary lies between the nearest one and the byte where the search began
      obtain ⟨j, hj⟩ : ∃ j, i - turns = j + 1 := ⟨i - turns - 1, by omega⟩
      have hinside : isBoundary bytes (j + 1) = false := by
        rw [← Bool.not_eq_true]
        intro hboundary
        have hnear := le_boundary hboundary (show j + 1 ≤ i by omega)
        omega
      rw [if_pos (by omega), if_pos (by omega), hj, turn_back hinside]
      congr 1
      omega
    · have hplace : i - turns = boundary bytes i := by omega
      rw [if_pos (by omega), if_neg (by omega), hplace, turn_boundary (isBoundary_boundary hfirst i)]
    · rw [if_neg (by omega), if_neg (by omega)]
      rfl

end Search

/-! ## Cutting -/

/-- the bytes before a place; nothing, if that would split a character -/
def slice? (bytes : List UInt8) (i : Nat) : Option (List UInt8) :=
  if isBoundary bytes i then some (bytes.take i) else none

theorem isBoundary_size {front text : List Char} (h : front <+: text) :
    isBoundary (encode text) (size front) = true := by
  obtain ⟨rest, rfl⟩ := h
  exact isBoundary_encode.2 ⟨front, rest, rfl, rfl⟩

/-- a text begins at a boundary -/
theorem isBoundary_start (text : List Char) : isBoundary (encode text) 0 = true := isBoundary_size text.nil_prefix

/-- characters are sliced off as a whole -/
theorem slice?_prefix {front text : List Char} (h : front <+: text) :
    slice? (encode text) (size front) = some (encode front) := by
  rw [slice?, if_pos (isBoundary_size h)]
  obtain ⟨rest, rfl⟩ := h
  rw [encode_append, ← length_encode, List.take_left]

theorem size_le_of_prefix {front text : List Char} (h : front <+: text) : size front ≤ size text := by
  obtain ⟨rest, rfl⟩ := h
  rw [size_append]
  exact Nat.le_add_right _ _

section

variable {limit : Nat} {text : List Char}

theorem cut_start (h : limit < size text) : cut limit text <+: text := by
  obtain ⟨c, rest, hsplit, -, -⟩ := cut_of_lt_size h
  exact ⟨c :: rest, hsplit.symm⟩

/-- every other first part that is short enough is a first part of what is kept -/
theorem prefix_cut (h : limit < size text) {other : List Char} (hother : other <+: text) (hfits : size other ≤ limit) :
    other <+: cut limit text := by
  obtain ⟨c, rest, hsplit, -, hfull⟩ := cut_of_lt_size h
  rcases List.prefix_or_prefix_of_prefix hother (cut_start h) with hshort | hlong
  · exact hshort
  · obtain ⟨more, rfl⟩ := hlong
    cases more with
    | nil => rw [List.append_nil]
    | cons x more =>
      -- the next character is the one that does not fit
      obtain ⟨rest', hrest'⟩ := hother
      rw [List.append_assoc, List.cons_append] at hrest'
      obtain ⟨rfl, -⟩ := List.cons.inj (List.append_cancel_left (hrest'.trans hsplit))
      have hmore : size (cut limit text ++ [x]) ≤ size (cut limit text ++ x :: more) :=
        size_le_of_prefix ⟨more, by rw [List.append_assoc, List.singleton_append]⟩
      omega

/-- a character has at most four bytes, so at most three bytes are given up -/
theorem le_size_cut (h : limit < size text) : limit ≤ size (cut limit text) + 3 := by
  obtain ⟨c, rest, -, -, hfull⟩ := cut_of_lt_size h
  have hfour : size [c] ≤ 4 := c.utf8Size_le_four
  rw [size_append] at hfull
  omega

theorem boundary_eq_size_cut (h : limit < size text) : boundary (encode text) limit = size (cut limit text) := by
  obtain ⟨c, rest, -, hfits, -⟩ := cut_of_lt_size h
  apply Nat.le_antisymm
  · obtain ⟨kept, rest, hsplit, hkept⟩ := isBoundary_encode.1 (isBoundary_boundary (isBoundary_start text) limit)
    rw [← hkept]
    apply size_le_of_prefix
    apply prefix_cut h ⟨rest, hsplit.symm⟩
    rw [hkept]
    exact boundary_le _ limit
  · exact le_boundary (isBoundary_size (cut_start h)) hfits

end

end Text.Utf8

namespace Rpc

open Text

/-! ## Failures -/

/-- an answer with another status than 2xx, and the text that came with it; a body that was broken off has none -/
inductive Refused : Delivery → UInt16 → List Char → Prop where
  | answered {status : UInt16} {body : List UInt8} (h : ¬WentWell status) :
    Refused (.answered status body) status (Utf8.decode body)
  | broken {status : UInt16} {late : Bool} (h : ¬WentWell status) : Refused (.broken status late) status []

/-- every text can come with a failure -/
theorem refused_encode {status : UInt16} (h : ¬WentWell status) (text : List Char) :
    Refused (.answered status (Utf8.encode text)) status text := by
  have hrefused : Refused (.answered status (Utf8.encode text)) status (Utf8.decode (Utf8.encode text)) := .answered h
  rwa [Utf8.decode_encode] at hrefused

theorem Refused.body_eq {d : Delivery} {status : UInt16} {text : List Char} (h : Refused d status text) :
    d.body = .error (.http status (String.ofList (keptText text))) := by
  cases h with
  | answered hstatus =>
    rw [Delivery.body, if_neg (mt isSuccess_iff.1 hstatus)]
    rfl
  | broken hstatus =>
    have hfailed : isSuccess status = false := by
      rw [← Bool.not_eq_true]
      exact mt isSuccess_iff.1 hstatus
    rw [Delivery.body, hfailed]
    rfl

/-- nothing else is a failure of this kind -/
theorem refused_of_body {d : Delivery} {status : UInt16} {kept : String} (h : d.body = .error (.http status kept)) :
    ∃ text, Refused d status text := by
  cases d with
  | answered other body =>
    rw [Delivery.body] at h
    split_ifs at h with hstatus
    cases h
    exact ⟨_, .answered (mt isSuccess_iff.2 hstatus)⟩
  | broken other late =>
    rw [Delivery.body] at h
    split_ifs at h with hstatus hlate
    · cases h
      refine ⟨_, .broken ?_⟩
      intro hwell
      rw [isSuccess_iff.2 hwell] at hstatus
      exact absurd hstatus Bool.false_ne_true
    · cases h
    · cases h
  | _ => cases h

/-- how a text that is too long is cut in front of the mark -/
structure Shortened (text front : List Char) : Prop where
  start : front <+: text
  fits : Utf8.size front ≤ 256
  /-- no other part of the text that fits is longer -/
  longest : ∀ other, other <+: text → Utf8.size other ≤ 256 → other <+: front
  /-- at most three of the 256 bytes are given up -/
  near : 253 ≤ Utf8.size front
  /-- the search for the place goes back by so many bytes and ends -/
  found : ∃ back ≤ 3, Utf8.Search.after (Utf8.encode text) 256 (back + 1) = .found (Utf8.size front)
  safe : ∀ turns, Utf8.Search.after (Utf8.encode text) 256 turns ≠ .underflow
  /-- no character is split there -/
  sliced : Utf8.slice? (Utf8.encode text) (Utf8.size front) = some (Utf8.encode front)

theorem shortened_cut {text : List Char} (h : 256 < Utf8.size text) : Shortened text (Utf8.cut 256 text) := by
  obtain ⟨c, rest, -, hfits, -⟩ := Utf8.cut_of_lt_size h
  have hnear := Utf8.le_size_cut h
  have hafter (turns : Nat) : Utf8.Search.after (Utf8.encode text) 256 turns =
      if turns ≤ 256 - Utf8.size (Utf8.cut 256 text) then .looking (256 - turns)
      else .found (Utf8.size (Utf8.cut 256 text)) := by
    rw [Utf8.Search.after_eq (Utf8.isBoundary_start text), Utf8.boundary_eq_size_cut h]
  refine ⟨Utf8.cut_start h, hfits, fun other => Utf8.prefix_cut h, by omega, ?_, ?_,
    Utf8.slice?_prefix (Utf8.cut_start h)⟩
  · refine ⟨256 - Utf8.size (Utf8.cut 256 text), by omega, ?_⟩
    rw [hafter, if_neg (by omega)]
  · intro turns
    rw [hafter]
    split_ifs
    · exact nofun
    · exact nofun

/-- **Failures keep whole characters.** Just the answers with another status than 2xx are failures that keep a text, and
every text can come with one. A text of at most 256 bytes is kept as it is. Of any other the longest first part is kept
that has at most 256 bytes, with a mark behind it; that gives up three of the 256 bytes at most. The search for its end
comes to it after going back that far, never goes back from the first byte, and no character is split there. -/
theorem failures_keep_characters :
    (∀ d status, (∃ kept, Delivery.body d = .error (.http status kept)) ↔ ∃ text, Refused d status text) ∧
    (∀ status text, ¬WentWell status → Refused (.answered status (Utf8.encode text)) status text) ∧
    ∀ d status text, Refused d status text → ∃ kept, d.body = .error (.http status kept) ∧
      (Utf8.size text ≤ 256 → kept = String.ofList text) ∧
      (256 < Utf8.size text →
        ∃ front, Shortened text front ∧ kept = String.ofList (front ++ "... (truncated)".toList)) := by
  refine ⟨?_, fun status text h => refused_encode h text, ?_⟩
  · intro d status
    constructor
    · rintro ⟨kept, hbody⟩
      exact refused_of_body hbody
    · rintro ⟨text, h⟩
      exact ⟨_, h.body_eq⟩
  · intro d status text h
    refine ⟨_, h.body_eq, ?_, ?_⟩
    · intro hshort
      rw [keptText, bodyLimit, if_pos hshort]
    · intro hlong
      refine ⟨_, shortened_cut hlong, ?_⟩
      rw [keptText, bodyLimit, if_neg (Nat.not_le.2 hlong)]

/-- the last character has one byte too many, and all four of its bytes have to go -/
def straddling : List Char := List.replicate 253 'a' ++ ['𝄞']

theorem failures_keep_characters_straddling :
    ¬WentWell 502 ∧ 256 < Utf8.size straddling ∧
    (Delivery.answered 502 (Utf8.encode straddling)).body =
      .error (.http 502 (String.ofList (List.replicate 253 'a' ++ "... (truncated)".toList))) := by
  have hstatus : ¬WentWell 502 := fun hwell => absurd hwell.2 (by decide)
  have hlong : 256 < Utf8.size straddling := by decide +kernel
  obtain ⟨-, hevery, hkept⟩ := failures_keep_characters
  obtain ⟨kept, hbody, -, hcut⟩ := hkept _ _ _ (hevery 502 straddling hstatus)
  obtain ⟨front, hfront, rfl⟩ := hcut hlong
  obtain ⟨more, rfl⟩ := hfront.longest (List.replicate 253 'a') ⟨_, rfl⟩ (by decide +kernel)
  rcases List.prefix_cons_iff.1 ((List.prefix_append_right_inj _).1 hfront.start) with rfl | ⟨rest, rfl, -⟩
  · rw [List.append_nil] at hbody
    exact ⟨hstatus, hlong, hbody⟩
  · -- with the last character there would be 257 bytes
    have hfits := hfront.fits
    rw [Utf8.size_append] at hfits
    have hfirst : Utf8.size (List.replicate 253 'a') = 253 := by decide +kernel
    have hlast : 4 ≤ Utf8.size ('𝄞' :: rest) := Nat.le_add_right 4 _
    omega

end Rpc

end ChainBridge
