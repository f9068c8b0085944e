/-
Amounts have one spelling each, but for the case of letters.

- `decodeAmount_eq`: what reading comes to, by what stands behind the marker. The digits that are left at the end are
  always a number (`Hex.number?_digits`), so reading them can not fail once more.
- `amounts_spelled`: an amount is read from exactly the texts that spell it (`SpellsAmount`), any other text gives the
  first of its faults (`HasFault`), writing gives the lower-case spelling, and what is written is read back below 2^256.
-/
import Mathlib
import ChainBridge.Json.Amount
import ChainBridge.Proofs.Json.Documents
import ChainBridge.Proofs.Text.Hex
import ChainBridge.Text.LowerCase

namespace ChainBridge.Quantity

open Text

/-! ## What is asked of a text -/

/-- a text is a marker and the given rest -/
def Marked (s : String) (body : List Char) : Prop :=
  s.toList = '0' :: 'x' :: body ∨ s.toList = '0' :: 'X' :: body

/-- a text is a marker and 1 to 64 digits of either case, the first of which is zero only if it is the only one, and
the number is what the values of the digits come to in base 16 -/
def SpellsAmount (s : String) (n : Nat) : Prop :=
  ∃ body ds, Marked s body ∧ List.Forall₂ (fun c d => d < 16 ∧ c.toLower = Hex.digit d) body ds ∧
    1 ≤ ds.length ∧ ds.length ≤ 64 ∧ (ds.head? = some 0 → ds.length = 1) ∧ n = Nat.ofDigits 16 ds.reverse

/-- whether a text has a fault, whatever other faults it has -/
def HasFault (s : String) : QuantityFault → Prop
  | .missingMarker t => t = s ∧ ∀ body, ¬Marked s body
  | .empty => Marked s []
  | .leadingZero t => t = s ∧ ∃ body, body ≠ [] ∧ Marked s ('0' :: body)
  | .invalidDigit t => t = s ∧ ∃ body, Marked s body ∧ ∃ c ∈ body, ∀ d < 16, c.toLower ≠ Hex.digit d
  | .overflow bits t => bits = 256 ∧ t = s ∧ ∃ body, Marked s body ∧ 64 < body.length
  | .wordLength _ => False

/-- the faults of an amount, in the order in which they are looked for -/
def amountFaults (s : String) : List QuantityFault :=
  [.missingMarker s, .empty, .leadingZero s, .invalidDigit s, .overflow 256 s]

/-- the first element of a list that has a property -/
def First {α : Type} (p : α → Prop) : List α → α → Prop
  | [], _ => False
  | x :: xs, y => p x ∧ x = y ∨ ¬p x ∧ First p xs y

/-! ## Faults by what stands behind the marker -/

theorem marked_iff {s : String} {body : List Char} : Marked s body ↔ Hex.unmark? s.toList = some body := by
  unfold Marked
  constructor
  · rintro (h | h)
    · rw [h]
      rfl
    · rw [h]
      rfl
  · intro h
    unfold Hex.unmark? at h
    split at h
    · rename_i heq
      rw [heq, Option.some.inj h]
      exact Or.inl rfl
    · rename_i heq
      rw [heq, Option.some.inj h]
      exact Or.inr rfl
    · exact absurd h (by simp)

section

variable {s : String} {ds : List Char}

theorem unmark?_eq_none (h : ∀ body, ¬Marked s body) : Hex.unmark? s.toList = none := by
  cases hm : Hex.unmark? s.toList with
  | none => rfl
  | some body => exact absurd (marked_iff.2 hm) (h body)

theorem Marked.unique {body : List Char} (h : Marked s ds) (h' : Marked s body) : body = ds := by
  rw [marked_iff] at h h'
  exact Option.some.inj (h'.symm.trans h)

theorem Marked.exists_iff (h : Marked s ds) {p : List Char → Prop} : (∃ body, Marked s body ∧ p body) ↔ p ds := by
  constructor
  · rintro ⟨body, hbody, hp⟩
    rwa [h.unique hbody] at hp
  · exact fun hp => ⟨ds, h, hp⟩

theorem Marked.not_missing (h : Marked s ds) : ¬HasFault s (.missingMarker s) := fun hf => hf.2 ds h

theorem Marked.empty_iff (h : Marked s ds) : HasFault s .empty ↔ ds = [] := by
  constructor
  · exact fun hf => (h.unique hf).symm
  · rintro rfl
    exact h

theorem Marked.leadingZero_iff (h : Marked s ds) :
    HasFault s (.leadingZero s) ↔ 1 < ds.length ∧ ds.head? = some '0' := by
  constructor
  · rintro ⟨-, body, hne, hbody⟩
    rw [← h.unique hbody]
    have hpos := List.length_pos_iff.2 hne
    exact ⟨by rw [List.length_cons]; omega, rfl⟩
  · rintro ⟨hlength, hhead⟩
    cases ds with
    | nil => exact absurd hlength (by simp)
    | cons c body =>
      obtain rfl : c = '0' := Option.some.inj hhead
      refine ⟨rfl, body, ?_, h⟩
      rintro rfl
      exact absurd hlength (by simp)

theorem Marked.invalidDigit_iff (h : Marked s ds) : HasFault s (.invalidDigit s) ↔ ¬∀ c ∈ ds, Hex.isDigit c = true := by
  simp only [HasFault, true_and, h.exists_iff, Hex.isDigit_iff]
  push Not
  rfl

theorem Marked.overflow_iff (h : Marked s ds) : HasFault s (.overflow 256 s) ↔ 64 < ds.length := by
  simp only [HasFault, true_and, h.exists_iff]

/-! ## Reading -/

theorem decodeAmount_unmarked (h : ∀ body, ¬Marked s body) : decodeAmount s = .error (.missingMarker s) := by
  rw [decodeAmount, digits, unmark?_eq_none h]
  rfl

/-- what reading comes to when there is a marker -/
theorem Marked.decodeAmount_eq (h : Marked s ds) :
    decodeAmount s =
      if ds = [] then .error .empty
      else if 1 < ds.length ∧ ds.head? = some '0' then .error (.leadingZero s)
      else if ¬∀ c ∈ ds, Hex.isDigit c = true then .error (.invalidDigit s)
      else if 64 < ds.length then .error (.overflow 256 s)
      else .ok (Hex.value ds) := by
  have hmark := marked_iff.1 h
  rw [decodeAmount, digits, hmark]
  by_cases hnil : ds = []
  · subst hnil
    rfl
  rw [if_neg hnil]
  split
  · rename_i heq
    exact absurd heq (by simp)
  · rename_i heq
    exact absurd (Option.some.inj heq) hnil
  rename_i body _ heq
  obtain rfl := Option.some.inj heq
  by_cases hzero : 1 < ds.length ∧ ds.head? = some '0'
  · rw [if_pos hzero, if_pos hzero]
    rfl
  rw [if_neg hzero, if_neg hzero]
  by_cases hall : ∀ c ∈ ds, Hex.isDigit c = true
  · rw [if_neg (by simpa using hall), if_neg (not_not.2 hall)]
    simp only [bind, Except.bind, Hex.number?_digits hall hnil]
  · rw [if_pos (by simpa using hall), if_pos hall]
    rfl

/-- the texts that spell amounts, by the characters behind the marker -/
theorem spells_iff {n : Nat} : SpellsAmount s n ↔ ∃ body, Marked s body ∧ body ≠ [] ∧
    ¬(1 < body.length ∧ body.head? = some '0') ∧ (∀ c ∈ body, Hex.isDigit c = true) ∧ body.length ≤ 64 ∧
    n = Hex.value body := by
  have hzero : ∀ {body : List Char} {ds : List Nat}, List.Forall₂ (fun c d => Hex.digit? c = some d) body ds →
      (ds.head? = some 0 ↔ body.head? = some '0') := by
    intro body ds h
    cases h with
    | nil => simp
    | cons hd _ =>
      rw [List.head?_cons, List.head?_cons, Option.some.injEq, Option.some.injEq, ← Hex.digit?_eq_zero_iff, hd,
        Option.some.injEq]
  simp only [SpellsAmount, ← Hex.digit?_eq_some_iff]
  constructor
  · rintro ⟨body, ds, hm, hds, hpos, hmax, hhead, rfl⟩
    have hlength := hds.length_eq
    refine ⟨body, hm, ?_, ?_, Hex.all_isDigit_iff.2 ⟨ds, hds⟩, by omega, (Hex.value_eq_ofDigits hds).symm⟩
    · rintro rfl
      rw [List.length_nil] at hlength
      omega
    · rintro ⟨hlong, h0⟩
      have hone := hhead ((hzero hds).2 h0)
      omega
  · rintro ⟨body, hm, hne, hhead, hall, hmax, rfl⟩
    obtain ⟨ds, hds⟩ := Hex.all_isDigit_iff.1 hall
    have hlength := hds.length_eq
    have hpos := List.length_pos_iff.2 hne
    refine ⟨body, ds, hm, hds, by omega, by omega, fun h0 => ?_, Hex.value_eq_ofDigits hds⟩
    by_contra hone
    exact hhead ⟨by omega, (hzero hds).1 h0⟩

theorem decodeAmount_ok_iff {n : Nat} : decodeAmount s = .ok n ↔ SpellsAmount s n := by
  rw [spells_iff]
  constructor
  · intro h
    by_cases hm : ∃ body, Marked s body
    · obtain ⟨body, hm⟩ := hm
      rw [hm.decodeAmount_eq] at h
      split_ifs at h with hnil hlead hall hlong
      exact ⟨body, hm, hnil, hlead, hall, by omega, (Except.ok.inj h).symm⟩
    · rw [decodeAmount_unmarked (not_exists.1 hm)] at h
      exact absurd h (by simp)
  · rintro ⟨body, hm, hnil, hlead, hall, hmax, rfl⟩
    rw [hm.decodeAmount_eq, if_neg hnil, if_neg hlead, if_neg (not_not.2 hall), if_neg (by omega)]

theorem decodeAmount_error_iff {fault : QuantityFault} :
    decodeAmount s = .error fault ↔ First (HasFault s) (amountFaults s) fault := by
  unfold amountFaults
  by_cases hm : ∃ body, Marked s body
  · obtain ⟨body, hm⟩ := hm
    simp only [First, hm.not_missing, hm.empty_iff, hm.leadingZero_iff, hm.invalidDigit_iff, hm.overflow_iff]
    rw [hm.decodeAmount_eq]
    by_cases hnil : body = []
    · simp [hnil]
    by_cases hlead : 1 < body.length ∧ body.head? = some '0'
    · simp only [hnil, hlead, if_true, if_false, not_false_eq_true, not_true_eq_false, true_and, false_and, false_or,
        or_false, Except.error.injEq, and_self]
    by_cases hall : ∀ c ∈ body, Hex.isDigit c = true
    · rw [if_neg hnil, if_neg hlead, if_neg (not_not.2 hall)]
      by_cases hlong : 64 < body.length
      · simp only [hnil, hlead, not_not.2 hall, not_false_eq_true, hlong, if_true, true_and, false_and, false_or,
          not_true_eq_false, or_false, Except.error.injEq]
      · simp only [hnil, hlead, not_not.2 hall, hlong, if_false, not_false_eq_true, false_and, false_or,
          and_false, reduceCtorEq]
    · rw [if_neg hnil, if_neg hlead, if_pos hall]
      simp only [hnil, hlead, hall, not_false_eq_true, true_and, false_and, false_or, not_true_eq_false, or_false,
        Except.error.injEq]
  · have hmissing : HasFault s (.missingMarker s) := ⟨rfl, not_exists.1 hm⟩
    rw [decodeAmount_unmarked (not_exists.1 hm)]
    simp only [First, hmissing, true_and, not_true_eq_false, false_and, or_false, Except.error.injEq]

/-! ## Writing -/

/-- characters of ASCII have one lower-case form each -/
theorem lowerCase_ascii {cs : List Char} (h : ∀ c ∈ cs, c.toNat < 0x80) :
    cs.flatMap LowerCase.ofChar = cs.map Char.toLower := by
  induction cs with
  | nil => rfl
  | cons c cs ih =>
    rw [List.flatMap_cons, ih fun d hd => h d (List.mem_cons_of_mem c hd), LowerCase.ofChar,
      if_pos (h c List.mem_cons_self)]
    rfl

/-- a marker and characters of ASCII in lower case -/
theorem Marked.lowerCase {body : List Char} (hm : Marked s body)
    (h : ∀ c ∈ body, c.toNat < 0x80) : s.toList.flatMap LowerCase.ofChar = '0' :: 'x' :: body.map Char.toLower := by
  rcases hm with hm | hm
  · rw [hm, List.flatMap_cons, List.flatMap_cons, lowerCase_ascii h]
    rfl
  · rw [hm, List.flatMap_cons, List.flatMap_cons, lowerCase_ascii h]
    rfl

/-- an amount is written as it was read, in lower case -/
theorem encode_of_spelled {n : Nat} (h : SpellsAmount s n) : encodeAmount n = LowerCase.ofText s := by
  obtain ⟨body, hm, hnil, hlead, hall, -, rfl⟩ := spells_iff.1 h
  have hdigits := Hex.digits_value hall hnil fun hlong h0 => hlead ⟨hlong, h0⟩
  have hascii : ∀ c ∈ body, c.toNat < 0x80 := by
    intro c hc
    by_contra hno
    have hdigit := hall c hc
    rw [Hex.isDigit, Hex.digit?_eq_none (by omega)] at hdigit
    exact absurd hdigit (by simp)
  rw [encodeAmount, LowerCase.ofText, hm.lowerCase hascii, hdigits]

/-- what is written is read back if it is not too wide -/
theorem decode_encode (n : Nat) :
    decodeAmount (encodeAmount n) = if n < 2 ^ 256 then .ok n else .error (.overflow 256 (encodeAmount n)) := by
  have hm : Marked (encodeAmount n) (Hex.digits n) := Or.inl (String.toList_ofList)
  have hlead : ¬(1 < (Hex.digits n).length ∧ (Hex.digits n).head? = some '0') := by
    rintro ⟨hlong, h0⟩
    rw [Hex.digits_head h0, Hex.digits_of_lt (by decide)] at hlong
    exact absurd hlong (by decide)
  have hall : ∀ c ∈ Hex.digits n, Hex.isDigit c = true := fun c => Hex.isDigit_of_mem_digits
  have hwide : (Hex.digits n).length ≤ 64 ↔ n < 2 ^ 256 := by
    rw [Hex.length_digits_le_iff (by decide)]
    norm_num
  rw [hm.decodeAmount_eq, if_neg (Hex.digits_ne_nil n), if_neg hlead, if_neg (not_not.2 hall), Hex.value_digits]
  by_cases h : n < 2 ^ 256
  · rw [if_pos h, if_neg (by have := hwide.2 h; omega)]
  · rw [if_neg h, if_pos (by have := mt hwide.1 h; omega)]

end

/-- **One spelling for each amount.** An amount is read from a text exactly if the text spells it; any other text gives
the first of its faults. The amount is written as the text in lower case, and what is written for any number is read
back as that number below 2^256 and is too wide from there on, also as a JSON document. -/
theorem amounts_spelled (s : String) (n : Nat) :
    (decodeAmount s = .ok n ↔ SpellsAmount s n) ∧
    (∀ fault, decodeAmount s = .error fault ↔ First (HasFault s) (amountFaults s) fault) ∧
    (decodeAmount s = .ok n → encodeAmount n = LowerCase.ofText s) ∧
    decodeAmount (encodeAmount n) = (if n < 2 ^ 256 then .ok n else .error (.overflow 256 (encodeAmount n))) ∧
    ((Json.parse? (Json.ofAmount n).compact).map Json.toAmount = some (.ok n) ↔ n < 2 ^ 256) := by
  refine ⟨decodeAmount_ok_iff, fun _ => decodeAmount_error_iff, fun h => encode_of_spelled (decodeAmount_ok_iff.1 h),
    decode_encode n, ?_⟩
  have hread : Json.parse? (Json.ofAmount n).compact = some (Json.ofAmount n) :=
    Json.parse?_compact rfl rfl (Nat.zero_le _)
  rw [hread, Option.map_some, Option.some.injEq, Json.ofAmount, Json.toAmount, decode_encode]
  by_cases h : n < 2 ^ 256
  · simp only [h, if_true, iff_true]
    rfl
  · simp only [h, if_false, iff_false, Except.mapError]
    intro heq
    cases heq

end ChainBridge.Quantity
