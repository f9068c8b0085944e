/-
Byte strings written two digits to the byte.

A byte string is read from the characters that are the digits of its bytes, in either case (`decode_ok_iff`). What does
not read has an odd number of characters, which is found first (`decode_odd_iff`), or a first character that is no
digit, which is named with its position (`decode_bad_iff`). Reading goes along two characters at a time, so both
`decodePairs_digits` and `decodePairs_stray` are inductions along pairs.
-/
import Mathlib
import ChainBridge.Proofs.Text.Hex
import ChainBridge.Proofs.Text.Utf8

namespace ChainBridge.Text.Hex

/-! ## Digits of bytes -/

/-- the values of the digits that bytes are written with, two for each byte, the high half first -/
def halves (bytes : List UInt8) : List Nat := bytes.flatMap fun b => [b.toNat / 16, b.toNat % 16]

theorem halves_cons (b : UInt8) (bytes : List UInt8) :
    halves (b :: bytes) = b.toNat / 16 :: b.toNat % 16 :: halves bytes := rfl

theorem length_halves (bytes : List UInt8) : (halves bytes).length = 2 * bytes.length := by
  induction bytes with
  | nil => rfl
  | cons b bytes ih =>
    rw [halves_cons, List.length_cons, List.length_cons, List.length_cons, ih]
    omega

/-- a character that is no digit stands at a position, and only digits stand before it -/
def StraysAt (cs : List Char) (c : Char) (position : Nat) : Prop :=
  ∃ kept rest, cs = kept ++ c :: rest ∧ kept.length = position ∧ (∀ x ∈ kept, ∃ d < 16, x.toLower = digit d) ∧
    ∀ d < 16, c.toLower ≠ digit d

theorem isDigit_eq_false_iff {c : Char} : isDigit c = false ↔ ∀ d < 16, c.toLower ≠ digit d := by
  rw [← Bool.not_eq_true, isDigit_iff]
  push Not
  rfl

/-- digits are ASCII -/
theorem ascii_of_isDigit {c : Char} (h : isDigit c = true) : c.toNat < 0x80 := by
  by_contra hlarge
  rw [isDigit, digit?_eq_none (by omega)] at h
  exact absurd h (by decide)

/-- either all characters are digits, or there is a first that is none -/
theorem digits_or_stray (cs : List Char) : (∀ c ∈ cs, isDigit c = true) ∨ ∃ c position, StraysAt cs c position := by
  cases hfind : cs.find? (fun c => !isDigit c) with
  | none => exact .inl (by simpa using hfind)
  | some c =>
    obtain ⟨hc, kept, rest, hcs, hkept⟩ := List.find?_eq_some_iff_append.1 hfind
    refine .inr ⟨c, kept.length, kept, rest, hcs, rfl, ?_, isDigit_eq_false_iff.1 (by simpa using hc)⟩
    intro x hx
    exact isDigit_iff.1 (by simpa using hkept x hx)

/-- different byte strings are written differently -/
theorem encode_injective : Function.Injective encode := by
  intro a b h
  have hread := decode_encode a
  rw [h, decode_encode] at hread
  exact (Except.ok.inj hread).symm

/-! ## Reading -/

/-- an even number of digits is read -/
theorem decodePairs_digits : ∀ (cs : List Char) (position : Nat), (∀ c ∈ cs, isDigit c = true) → cs.length % 2 = 0 →
    ∃ bytes, decodePairs position cs = .ok bytes ∧ List.Forall₂ (fun c d => digit? c = some d) cs (halves bytes)
  | [], _, _, _ => ⟨[], rfl, .nil⟩
  | [c], _, _, heven => absurd heven (by simp)
  | h :: l :: rest, position, hall, heven => by
    obtain ⟨x, hx⟩ := Option.isSome_iff_exists.1 (hall h (by simp))
    obtain ⟨y, hy⟩ := Option.isSome_iff_exists.1 (hall l (by simp))
    rw [List.length_cons, List.length_cons] at heven
    obtain ⟨bytes, hbytes, hrest⟩ := decodePairs_digits rest (position + 2)
      (fun c hc => hall c (List.mem_cons_of_mem _ (List.mem_cons_of_mem _ hc))) (by omega)
    have hx16 := (digit?_eq_some_iff.1 hx).1
    have hy16 := (digit?_eq_some_iff.1 hy).1
    have hsmall : 16 * x + y < UInt8.size := by
      have hsize : UInt8.size = 256 := rfl
      omega
    have hbyte := UInt8.toNat_ofNat_of_lt' hsmall
    refine ⟨UInt8.ofNat (16 * x + y) :: bytes, ?_, ?_⟩
    · simp only [decodePairs, hx, hy, hbytes]
      rfl
    · rw [halves_cons, hbyte, show (16 * x + y) / 16 = x by omega, show (16 * x + y) % 16 = y by omega]
      exact .cons hx (.cons hy hrest)

/-- of an even number of characters the first that is no digit is named -/
theorem decodePairs_stray : ∀ (kept : List Char) (c : Char) (rest : List Char) (position : Nat),
    (∀ x ∈ kept, isDigit x = true) → isDigit c = false → (kept ++ c :: rest).length % 2 = 0 →
    decodePairs position (kept ++ c :: rest) = .error (.badDigit c (position + kept.length))
  | [], c, [], _, _, _, heven => absurd heven (by simp)
  | [], c, l :: rest, position, _, hc, _ => by
    have hnone : digit? c = none := by simpa [isDigit] using hc
    simp only [List.nil_append, decodePairs, hnone]
    rfl
  | [h], c, rest, position, hkept, hc, _ => by
    have hnone : digit? c = none := by simpa [isDigit] using hc
    obtain ⟨x, hx⟩ := Option.isSome_iff_exists.1 (hkept h (by simp))
    simp only [List.singleton_append, decodePairs, hx, hnone]
    rfl
  | h :: l :: kept, c, rest, position, hkept, hc, heven => by
    obtain ⟨x, hx⟩ := Option.isSome_iff_exists.1 (hkept h (by simp))
    obtain ⟨y, hy⟩ := Option.isSome_iff_exists.1 (hkept l (by simp))
    rw [List.cons_append, List.cons_append, List.length_cons, List.length_cons] at heven
    have hrest := decodePairs_stray kept c rest (position + 2)
      (fun x hx => hkept x (List.mem_cons_of_mem _ (List.mem_cons_of_mem _ hx))) hc (by omega)
    have hplace : position + 2 + kept.length = position + (h :: l :: kept).length := by
      rw [List.length_cons, List.length_cons]
      omega
    rw [hplace] at hrest
    simp only [List.cons_append, decodePairs, hx, hy, hrest]
    rfl

/-- digits have one value each -/
theorem forall₂_digit?_unique {cs : List Char} {ds es : List Nat}
    (hd : List.Forall₂ (fun c d => digit? c = some d) cs ds) (he : List.Forall₂ (fun c d => digit? c = some d) cs es) :
    ds = es := by
  induction hd generalizing es with
  | nil =>
    cases he
    rfl
  | cons hd _ ih =>
    cases he with
    | cons he hes =>
      rw [Option.some.inj (hd.symm.trans he), ih hes]

theorem halves_injective {a b : List UInt8} (h : halves a = halves b) : a = b := by
  induction a generalizing b with
  | nil =>
    cases b with
    | nil => rfl
    | cons y b => cases h
  | cons x a ih =>
    cases b with
    | nil => cases h
    | cons y b =>
      rw [halves_cons, halves_cons] at h
      obtain ⟨hhigh, htail⟩ := List.cons.inj h
      obtain ⟨hlow, hrest⟩ := List.cons.inj htail
      rw [ih hrest, UInt8.toNat_inj.1 (show x.toNat = y.toNat by omega)]

/-- what reading comes to: the number of characters is odd, or one is no digit, or they are the digits of bytes -/
theorem decode_cases (cs : List Char) :
    cs.length % 2 = 1 ∧ decode cs = .error .oddLength ∨
    (∃ c position, cs.length % 2 = 0 ∧ StraysAt cs c position ∧ decode cs = .error (.badDigit c position)) ∨
    ∃ bytes, List.Forall₂ (fun c d => digit? c = some d) cs (halves bytes) ∧ decode cs = .ok bytes := by
  by_cases hodd : cs.length % 2 = 1
  · exact .inl ⟨hodd, by rw [decode, if_pos hodd]⟩
  have heven : cs.length % 2 = 0 := by omega
  rw [decode, if_neg hodd]
  rcases digits_or_stray cs with hall | ⟨c, position, kept, rest, rfl, hlength, hkept, hc⟩
  · obtain ⟨bytes, hread, hbytes⟩ := decodePairs_digits cs 0 hall heven
    exact .inr (.inr ⟨bytes, hbytes, hread⟩)
  · refine .inr (.inl ⟨c, position, heven, ⟨kept, rest, rfl, hlength, hkept, hc⟩, ?_⟩)
    rw [decodePairs_stray kept c rest 0 (fun x hx => isDigit_iff.2 (hkept x hx)) (isDigit_eq_false_iff.2 hc) heven,
      hlength, Nat.zero_add]

theorem even_of_halves {cs : List Char} {bytes : List UInt8}
    (h : List.Forall₂ (fun c d => digit? c = some d) cs (halves bytes)) : cs.length = 2 * bytes.length := by
  rw [h.length_eq, length_halves]

theorem StraysAt.not_digits {cs : List Char} {c : Char} {position : Nat} (h : StraysAt cs c position) :
    ¬∀ x ∈ cs, isDigit x = true := by
  obtain ⟨kept, rest, rfl, -, -, hc⟩ := h
  intro hall
  have hdigit := hall c (by simp)
  rw [isDigit_eq_false_iff.2 hc] at hdigit
  exact absurd hdigit (by decide)

/-- a byte string is read from the digits of its bytes -/
theorem decode_ok_iff {cs : List Char} {bytes : List UInt8} :
    decode cs = .ok bytes ↔ List.Forall₂ (fun c d => digit? c = some d) cs (halves bytes) := by
  constructor
  · intro h
    rcases decode_cases cs with ⟨-, hread⟩ | ⟨c, position, -, -, hread⟩ | ⟨other, hother, hread⟩
    · rw [hread] at h
      cases h
    · rw [hread] at h
      cases h
    · rw [hread] at h
      rwa [← Except.ok.inj h]
  · intro h
    have heven := even_of_halves h
    rcases decode_cases cs with ⟨hodd, -⟩ | ⟨c, position, -, hstray, -⟩ | ⟨other, hother, hread⟩
    · omega
    · exact absurd (all_isDigit_iff.2 ⟨_, h⟩) hstray.not_digits
    · rw [hread, halves_injective (forall₂_digit?_unique hother h)]

theorem decode_odd_iff {cs : List Char} : decode cs = .error .oddLength ↔ cs.length % 2 = 1 := by
  constructor
  · intro h
    rcases decode_cases cs with ⟨hodd, -⟩ | ⟨c, position, -, -, hread⟩ | ⟨bytes, -, hread⟩
    · exact hodd
    · rw [hread] at h
      cases h
    · rw [hread] at h
      cases h
  · intro h
    rw [decode, if_pos h]

/-- the character that is named is the first that is no digit -/
theorem decode_bad_iff {cs : List Char} {c : Char} {position : Nat} :
    decode cs = .error (.badDigit c position) ↔ cs.length % 2 = 0 ∧ StraysAt cs c position := by
  constructor
  · intro h
    rcases decode_cases cs with ⟨-, hread⟩ | ⟨x, place, heven, hstray, hread⟩ | ⟨bytes, -, hread⟩
    · rw [hread] at h
      cases h
    · rw [hread] at h
      cases h
      exact ⟨heven, hstray⟩
    · rw [hread] at h
      cases h
  · rintro ⟨heven, kept, rest, rfl, rfl, hkept, hc⟩
    rw [decode, if_neg (by omega), decodePairs_stray kept c rest 0 (fun x hx => isDigit_iff.2 (hkept x hx))
      (isDigit_eq_false_iff.2 hc) heven, Nat.zero_add]

/-- a text is read by its bytes, which makes no difference where it reads -/
theorem decode_octets_ok_iff {cs : List Char} {bytes : List UInt8} :
    decode (Utf8.octets cs) = .ok bytes ↔ List.Forall₂ (fun c d => digit? c = some d) cs (halves bytes) := by
  rw [decode_ok_iff]
  constructor
  · intro h
    rwa [Utf8.octets_eq_self fun c hc => ascii_of_isDigit (all_isDigit_iff.2 ⟨_, h⟩ c hc)] at h
  · intro h
    rwa [Utf8.octets_ascii fun c hc => ascii_of_isDigit (all_isDigit_iff.2 ⟨_, h⟩ c hc)]

end ChainBridge.Text.Hex
