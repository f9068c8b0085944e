/-
Call results are whole words, of which the first is the answer.

A call result is read by its bytes (`payload_ok_iff`): it has a marker, an even number of digits and nothing else, and
the bytes are a whole number of words, at least one. So its first word is there to be taken (`length_payload`), and the
number that the bytes of the word stand for is what its digits come to (`ofBytes_eq_ofDigits`), whatever words follow.

- `words_spelled`: a number is read from exactly the texts that spell it as a first word (`SpellsWord`), any other text
  gives the first of its faults (`HasWordFault`), and a number below 2^256 that is written with zeros in front up to 64
  digits is read back, whatever whole words stand behind it.
-/
import Mathlib
import ChainBridge.Proofs.Quantity.Amounts
import ChainBridge.Proofs.Text.Bytes

namespace ChainBridge.Quantity

open Text

/-! ## What is asked of a text -/

/-- a text is a marker and 64 digits of either case for each of its words, of which there is at least one, and the
number is what the values of the first 64 come to in base 16 -/
def SpellsWord (s : String) (n : Nat) : Prop :=
  ∃ body ds, Marked s body ∧ List.Forall₂ (fun c d => d < 16 ∧ c.toLower = Hex.digit d) body ds ∧
    (∃ words, 1 ≤ words ∧ ds.length = 64 * words) ∧ n = Nat.ofDigits 16 (ds.take 64).reverse

/-- whether a text has a fault, whatever other faults it has; what stands behind the marker is looked at byte by byte -/
def HasWordFault (s : String) : QuantityFault → Prop
  | .missingMarker t => t = s ∧ ∀ body, ¬Marked s body
  | .empty => Marked s []
  | .invalidDigit t => t = s ∧ ∃ body, Marked s body ∧
      (Utf8.size body % 2 = 1 ∨ ∃ b ∈ Utf8.encode body, ∀ d < 16, (Utf8.octet b).toLower ≠ Hex.digit d)
  | .wordLength bytes => ∃ body, Marked s body ∧ Utf8.size body = 2 * bytes ∧ ¬32 ∣ bytes
  | _ => False

/-- the faults of a call result, in the order in which they are looked for; the last tells how many bytes there are -/
def wordFaults (s : String) : List QuantityFault :=
  [.missingMarker s, .empty, .invalidDigit s, .wordLength ((Utf8.size s.toList - 2) / 2)]

/-! ## The bytes of a call result -/

section

variable {s : String} {body : List Char} {bytes : List UInt8}

theorem payload_unmarked (h : ∀ body, ¬Marked s body) : payload s = .error (.missingMarker s) := by
  rw [payload, unmark?_eq_none h]

theorem Marked.size (h : Marked s body) : Utf8.size s.toList = 2 + Utf8.size body := by
  rcases h with h | h
  · rw [h]
    exact Utf8.size_append ['0', 'x'] body
  · rw [h]
    exact Utf8.size_append ['0', 'X'] body

theorem payload_empty (h : Marked s []) : payload s = .error .empty := by
  rw [payload, marked_iff.1 h]

/-- what reading comes to when something stands behind the marker -/
theorem Marked.payload_eq (h : Marked s body) (hne : body ≠ []) : payload s =
    match Hex.decode (Utf8.octets body) with
    | .error _ => .error (.invalidDigit s)
    | .ok bytes => if bytes.length % wordBytes ≠ 0 then .error (.wordLength bytes.length) else .ok bytes := by
  rw [payload, marked_iff.1 h]
  split
  · rename_i hmark
    cases hmark
  · rename_i hmark
    exact absurd (Option.some.inj hmark) hne
  · rename_i hmark
    obtain rfl := Option.some.inj hmark
    rfl

theorem payload_ok_iff : payload s = .ok bytes ↔ ∃ body, Marked s body ∧
    List.Forall₂ (fun c d => Hex.digit? c = some d) body (Hex.halves bytes) ∧ bytes ≠ [] ∧ bytes.length % 32 = 0 := by
  constructor
  · intro h
    by_cases hm : ∃ body, Marked s body
    · obtain ⟨body, hm⟩ := hm
      by_cases hnil : body = []
      · subst hnil
        rw [payload_empty hm] at h
        cases h
      rw [hm.payload_eq hnil] at h
      cases hread : Hex.decode (Utf8.octets body) with
      | error fault =>
        rw [hread] at h
        cases h
      | ok read =>
        rw [hread] at h
        simp only at h
        split_ifs at h with hwhole
        obtain rfl := Except.ok.inj h
        have hdigits := Hex.decode_octets_ok_iff.1 hread
        refine ⟨body, hm, hdigits, ?_, not_not.1 hwhole⟩
        rintro rfl
        cases hdigits
        exact hnil rfl
    · rw [payload_unmarked (not_exists.1 hm)] at h
      cases h
  · rintro ⟨body, hm, hdigits, hne, hwhole⟩
    have hbody : body ≠ [] := by
      rintro rfl
      have hlength := Hex.even_of_halves hdigits
      have hpos := List.length_pos_iff.2 hne
      rw [List.length_nil] at hlength
      omega
    rw [hm.payload_eq hbody, Hex.decode_octets_ok_iff.2 hdigits]
    exact if_neg (not_not.2 hwhole)

/-- the first word can be taken -/
theorem length_payload (h : payload s = .ok bytes) : wordBytes ≤ bytes.length := by
  obtain ⟨-, -, -, hne, hwhole⟩ := payload_ok_iff.1 h
  have hpos := List.length_pos_iff.2 hne
  rw [wordBytes]
  omega

theorem Marked.invalidDigit_bytes_iff (h : Marked s body) : HasWordFault s (.invalidDigit s) ↔
    ∃ fault, Hex.decode (Utf8.octets body) = .error fault := by
  have hlength : (Utf8.octets body).length = Utf8.size body := by
    rw [Utf8.octets, List.length_map, Utf8.length_encode]
  simp only [HasWordFault, true_and, h.exists_iff]
  rcases Hex.decode_cases (Utf8.octets body) with ⟨hodd, hread⟩ | ⟨c, position, -, hstray, hread⟩ | ⟨bytes, hdigits, hread⟩
  · rw [hread, ← hlength]
    exact iff_of_true (.inl hodd) ⟨_, rfl⟩
  · obtain ⟨kept, rest, hsplit, -, -, hc⟩ := hstray
    have hmem : c ∈ Utf8.octets body := by simp [hsplit]
    obtain ⟨b, hb, rfl⟩ := List.mem_map.1 hmem
    rw [hread]
    exact iff_of_true (.inr ⟨b, hb, hc⟩) ⟨_, rfl⟩
  · rw [hread]
    refine iff_of_false ?_ (by simp)
    rintro (hodd | ⟨b, hb, hno⟩)
    · have heven := Hex.even_of_halves hdigits
      omega
    · have hdigit := Hex.all_isDigit_iff.2 ⟨_, hdigits⟩ _ (List.mem_map_of_mem hb)
      obtain ⟨d, hd, heq⟩ := Hex.isDigit_iff.1 hdigit
      exact hno d hd heq

theorem Marked.wordLength_iff (h : Marked s body) {n : Nat} :
    HasWordFault s (.wordLength n) ↔ Utf8.size body = 2 * n ∧ ¬32 ∣ n := by
  simp only [HasWordFault, h.exists_iff]

theorem payload_error_iff {fault : QuantityFault} :
    payload s = .error fault ↔ First (HasWordFault s) (wordFaults s) fault := by
  unfold wordFaults
  by_cases hm : ∃ body, Marked s body
  · obtain ⟨body, hm⟩ := hm
    have hmissing : ¬HasWordFault s (.missingMarker s) := fun hf => hf.2 body hm
    have hempty : HasWordFault s .empty ↔ body = [] := hm.empty_iff
    simp only [First, hmissing, hempty, hm.invalidDigit_bytes_iff, hm.wordLength_iff, hm.size]
    by_cases hnil : body = []
    · subst hnil
      rw [payload_empty hm]
      simp
    rw [hm.payload_eq hnil]
    cases hread : Hex.decode (Utf8.octets body) with
    | error other => simp [hnil]
    | ok bytes =>
      have hlength : Utf8.size body = 2 * bytes.length := by
        rw [← Hex.even_of_halves (Hex.decode_ok_iff.1 hread), Utf8.octets, List.length_map, Utf8.length_encode]
      have hcount : (2 + Utf8.size body - 2) / 2 = bytes.length := by omega
      rw [hcount, hlength]
      by_cases hwhole : bytes.length % 32 = 0
      · simp [hnil, wordBytes, hwhole, Nat.dvd_of_mod_eq_zero hwhole]
      · simp [hnil, wordBytes, hwhole, Nat.dvd_iff_mod_eq_zero]
  · have hmissing : HasWordFault s (.missingMarker s) := ⟨rfl, not_exists.1 hm⟩
    rw [payload_unmarked (not_exists.1 hm)]
    simp only [First, hmissing, true_and, not_true_eq_false, false_and, or_false, Except.error.injEq]

/-! ## The number in the first word -/

/-- bytes stand for what their digits come to -/
theorem ofBytes_eq_ofDigits (bytes : List UInt8) : ofBytes bytes = Nat.ofDigits 16 (Hex.halves bytes).reverse := by
  induction bytes using List.reverseRecOn with
  | nil => rfl
  | append_singleton bytes b ih =>
    have hlast : Hex.halves (bytes ++ [b]) = Hex.halves bytes ++ [b.toNat / 16, b.toNat % 16] := List.flatMap_append
    calc ofBytes (bytes ++ [b])
        = 256 * ofBytes bytes + b.toNat := by rw [ofBytes, List.foldl_append]; rfl
      _ = b.toNat % 16 + 16 * (b.toNat / 16 + 16 * ofBytes bytes) := by omega
      _ = Nat.ofDigits 16 (Hex.halves (bytes ++ [b])).reverse := by
          rw [hlast, List.reverse_append, ih]
          rfl

theorem halves_take (bytes : List UInt8) (k : Nat) : Hex.halves (bytes.take k) = (Hex.halves bytes).take (2 * k) := by
  induction bytes generalizing k with
  | nil => simp [Hex.halves]
  | cons b bytes ih =>
    cases k with
    | zero => rfl
    | succ k => rw [List.take_succ_cons, Hex.halves_cons, Hex.halves_cons, ih]; rfl

theorem decodeWord_ok_iff {n : Nat} : decodeWord s = .ok n ↔ SpellsWord s n := by
  have hread : decodeWord s = .ok n ↔ ∃ bytes, payload s = .ok bytes ∧ n = ofBytes (bytes.take wordBytes) := by
    rw [decodeWord]
    cases payload s with
    | error fault => simp [Except.map]
    | ok bytes => simp [Except.map, eq_comm]
  have hvalue (bytes : List UInt8) :
      ofBytes (bytes.take wordBytes) = Nat.ofDigits 16 ((Hex.halves bytes).take 64).reverse := by
    rw [ofBytes_eq_ofDigits, halves_take]
    rfl
  simp only [hread, payload_ok_iff, SpellsWord, ← Hex.digit?_eq_some_iff]
  constructor
  · rintro ⟨bytes, ⟨body, hm, hdigits, hne, hwhole⟩, rfl⟩
    have hpos := List.length_pos_iff.2 hne
    refine ⟨body, Hex.halves bytes, hm, hdigits, ⟨bytes.length / 32, by omega, ?_⟩, hvalue bytes⟩
    rw [Hex.length_halves]
    omega
  · rintro ⟨body, ds, hm, hds, ⟨words, hwords, hlength⟩, rfl⟩
    obtain ⟨bytes, -, hdigits⟩ := Hex.decodePairs_digits body 0 (Hex.all_isDigit_iff.2 ⟨ds, hds⟩)
      (by rw [hds.length_eq]; omega)
    obtain rfl := Hex.forall₂_digit?_unique hdigits hds
    rw [Hex.length_halves] at hlength
    refine ⟨bytes, ⟨body, hm, hdigits, ?_, by omega⟩, (hvalue bytes).symm⟩
    rintro rfl
    rw [List.length_nil] at hlength
    omega

theorem decodeWord_error_iff {fault : QuantityFault} :
    decodeWord s = .error fault ↔ First (HasWordFault s) (wordFaults s) fault := by
  rw [← payload_error_iff, decodeWord]
  cases payload s with
  | error other => simp [Except.map]
  | ok bytes => simp [Except.map]

theorem SpellsWord.lt {n : Nat} (h : SpellsWord s n) : n < 2 ^ 256 := by
  obtain ⟨body, ds, -, hds, -, rfl⟩ := h
  have hsmall : ∀ d ∈ ds, d < 16 := by
    induction hds with
    | nil => exact fun d hd => absurd hd List.not_mem_nil
    | cons hc _ ih => exact List.forall_mem_cons.2 ⟨hc.1, ih⟩
  have hlength : (ds.take 64).reverse.length ≤ 64 := by
    rw [List.length_reverse]
    exact List.length_take_le 64 ds
  calc Nat.ofDigits 16 (ds.take 64).reverse
      < 16 ^ (ds.take 64).reverse.length :=
        Nat.ofDigits_lt_base_pow_length (by decide) fun d hd => hsmall d (List.mem_of_mem_take (List.mem_reverse.1 hd))
    _ ≤ 16 ^ 64 := Nat.pow_le_pow_right (by decide) hlength
    _ = 2 ^ 256 := by norm_num

/-! ## Words with zeros in front -/

/-- zeros in front do not count -/
theorem value_leftpad (k : Nat) (ds : List Char) : Hex.value (ds.leftpad k '0') = Hex.value ds := by
  rw [List.leftpad]
  induction k - ds.length with
  | zero => rfl
  | succ m ih =>
    rw [List.replicate_succ, List.cons_append]
    exact ih

/-- a number that is written with zeros in front is read back, whatever whole words follow -/
theorem spellsWord_padded {n : Nat} {rest : List Char} (hn : n < 2 ^ 256)
    (hrest : ∀ c ∈ rest, ∃ d < 16, c.toLower = Hex.digit d) (hwhole : 64 ∣ rest.length) :
    SpellsWord (String.ofList ('0' :: 'x' :: ((Hex.digits n).leftpad 64 '0' ++ rest))) n := by
  have hshort : (Hex.digits n).length ≤ 64 := by
    rw [Hex.length_digits_le_iff (by decide)]
    exact lt_of_lt_of_eq hn (by norm_num)
  have hpadded : ((Hex.digits n).leftpad 64 '0').length = 64 := by
    rw [List.length_leftpad]
    omega
  have hall : ∀ c ∈ (Hex.digits n).leftpad 64 '0' ++ rest, Hex.isDigit c = true := by
    intro c hc
    rcases List.mem_append.1 hc with hc | hc
    · rcases List.mem_append.1 hc with hc | hc
      · rw [List.eq_of_mem_replicate hc]
        rfl
      · exact Hex.isDigit_of_mem_digits hc
    · exact Hex.isDigit_iff.2 (hrest c hc)
  obtain ⟨ds, hds⟩ := Hex.all_isDigit_iff.1 hall
  have hfirst := List.forall₂_take 64 hds
  rw [List.take_left' hpadded] at hfirst
  obtain ⟨words, hwords⟩ := hwhole
  refine ⟨_, ds, Or.inl String.toList_ofList, ?_, ⟨1 + words, by omega, ?_⟩, ?_⟩
  · exact hds.imp fun c d h => Hex.digit?_eq_some_iff.1 h
  · rw [← hds.length_eq, List.length_append, hpadded, hwords]
    omega
  · calc n = Hex.value ((Hex.digits n).leftpad 64 '0') := by rw [value_leftpad, Hex.value_digits]
      _ = Nat.ofDigits 16 (ds.take 64).reverse := Hex.value_eq_ofDigits hfirst

end

/-- **The first word is the answer.** A number is read from a call result exactly if the text spells it as its first
word, and then it is below 2^256; any other text gives the first of its faults. Conversely a number below 2^256 that is
written with zeros in front is read back, whatever whole words follow. The first word is taken only from bytes that
have one. -/
theorem words_spelled (s : String) (n : Nat) :
    (decodeWord s = .ok n ↔ SpellsWord s n) ∧
    (decodeWord s = .ok n → n < 2 ^ 256) ∧
    (∀ fault, decodeWord s = .error fault ↔ First (HasWordFault s) (wordFaults s) fault) ∧
    (∀ rest : List Char, n < 2 ^ 256 → (∀ c ∈ rest, ∃ d < 16, c.toLower = Hex.digit d) → 64 ∣ rest.length →
      decodeWord (String.ofList ('0' :: 'x' :: ((Hex.digits n).leftpad 64 '0' ++ rest))) = .ok n) ∧
    (∀ bytes, payload s = .ok bytes → wordBytes ≤ bytes.length) := by
  refine ⟨?_, ?_, ?_, ?_, ?_⟩
  · exact decodeWord_ok_iff
  · intro h
    exact (decodeWord_ok_iff.1 h).lt
  · intro fault
    exact decodeWord_error_iff
  · intro rest hn hrest hwhole
    exact decodeWord_ok_iff.2 (spellsWord_padded hn hrest hwhole)
  · intro bytes h
    exact length_payload h

/-- a second word, with its digits in capitals, makes no difference to the first -/
theorem words_spelled_twoWords : ∃ s n rest, n < 2 ^ 256 ∧
    s = String.ofList ('0' :: 'x' :: ((Hex.digits n).leftpad 64 '0' ++ rest)) ∧ rest.length = 64 ∧
    decodeWord s = .ok n := by
  have hrest : ∀ c ∈ List.replicate 64 'F', ∃ d < 16, c.toLower = Hex.digit d := by
    intro c hc
    rw [List.eq_of_mem_replicate hc]
    exact ⟨15, by decide, rfl⟩
  have hread := (words_spelled "" 42).2.2.2.1 (List.replicate 64 'F') (by norm_num) hrest (by decide)
  exact ⟨_, 42, List.replicate 64 'F', by norm_num, rfl, rfl, hread⟩

end ChainBridge.Quantity
