/-
Addresses and their texts.

A text is an address if it is a marker and forty digits of either case, which are those of the twenty bytes
(`parse_ok_iff`). Other texts are refused for the first thing that is wrong with them, where what stands behind the
marker is looked at byte by byte (`Refuses`). The text that is written is the one that was read in lower case
(`display_of_spelled`), so texts that differ only in case name one address. Digits in lower case stand in the order of
their values, and so texts stand in the order of the addresses (`compare_display`).

- `addresses_spelled`: all of this, and the same for texts in JSON.
-/
import Mathlib
import ChainBridge.Json.Address
import ChainBridge.Proofs.Json.Documents
import ChainBridge.Proofs.Quantity.Amounts
import ChainBridge.Proofs.Text.Bytes

namespace ChainBridge

open Text
open Quantity (Marked marked_iff unmark?_eq_none)

namespace Address

/-! ## Equal addresses -/

theorem eq_of_bytes {a b : Address} (h : a.bytes = b.bytes) : a = b := by
  cases a
  cases b
  cases h
  rfl

theorem display_injective : Function.Injective display := by
  intro a b h
  have hdigits := (List.cons.inj (List.cons.inj (String.ofList_injective h)).2).2
  exact eq_of_bytes (Text.Hex.encode_injective hdigits)

/-! ## What is asked of a text -/

/-- a text is a marker and forty digits of either case, two for each byte of an address, the high half first -/
def Spells (s : String) (a : Address) : Prop :=
  ∃ body, Marked s body ∧ body.length = 40 ∧
    List.Forall₂ (fun c d => d < 16 ∧ c.toLower = Hex.digit d) body (a.bytes.flatMap fun b => [b.toNat / 16, b.toNat % 16])

/-- what is wrong with a text, each after what comes before it has been found right -/
def Refuses (s : String) : AddressFault → Prop
  | .missingMarker => ∀ body, ¬Marked s body
  | .invalidHex .oddLength => ∃ body, Marked s body ∧ (Utf8.encode body).length % 2 = 1
  | .invalidHex (.badDigit c position) => ∃ body, Marked s body ∧ (Utf8.encode body).length % 2 = 0 ∧
      Hex.StraysAt ((Utf8.encode body).map Utf8.octet) c position
  | .invalidLength bytes => ∃ body, Marked s body ∧ (∀ c ∈ body, ∃ d < 16, c.toLower = Hex.digit d) ∧
      (Utf8.encode body).length = 2 * bytes ∧ bytes ≠ 20

/-! ## Reading -/

section

variable {s t : String} {a b : Address} {body : List Char}

theorem parse_unmarked (h : ∀ body, ¬Marked s body) : parse s = .error .missingMarker := by
  rw [parse, unmark?_eq_none h]

/-- what reading comes to behind the marker -/
theorem parse_marked (h : Marked s body) : parse s =
    match Hex.decode (Utf8.octets body) with
    | .error fault => .error (.invalidHex fault)
    | .ok bytes => if h : bytes.length = 20 then .ok ⟨bytes, h⟩ else .error (.invalidLength bytes.length) := by
  have hmark := marked_iff.1 h
  cases hread : Hex.decode (Utf8.octets body) with
  | error fault => simp only [parse, hmark, hread]
  | ok bytes => simp only [parse, hmark, hread]

theorem parse_ok_iff : parse s = .ok a ↔ Spells s a := by
  simp only [Spells, ← Hex.digit?_eq_some_iff]
  constructor
  · intro h
    by_cases hm : ∃ body, Marked s body
    · obtain ⟨body, hm⟩ := hm
      rw [parse_marked hm] at h
      cases hread : Hex.decode (Utf8.octets body) with
      | error fault =>
        rw [hread] at h
        cases h
      | ok bytes =>
        rw [hread] at h
        simp only at h
        split_ifs at h with hsize
        obtain rfl := Except.ok.inj h
        have hdigits := Hex.decode_octets_ok_iff.1 hread
        have hlength := Hex.even_of_halves hdigits
        exact ⟨body, hm, by omega, hdigits⟩
    · rw [parse_unmarked (not_exists.1 hm)] at h
      cases h
  · rintro ⟨body, hm, -, hdigits⟩
    rw [parse_marked hm, Hex.decode_octets_ok_iff.2 hdigits]
    exact dif_pos a.size

/-- whatever forty digits stand behind a marker, they are the digits of an address -/
theorem exists_spelled_iff : (∃ a, Spells s a) ↔
    ∃ body, Marked s body ∧ body.length = 40 ∧ ∀ c ∈ body, ∃ d < 16, c.toLower = Hex.digit d := by
  constructor
  · rintro ⟨a, body, hm, hlength, hdigits⟩
    refine ⟨body, hm, hlength, fun c hc => ?_⟩
    rw [← Hex.isDigit_iff]
    exact Hex.all_isDigit_iff.2 ⟨_, hdigits.imp fun _ _ h => Hex.digit?_eq_some_iff.2 h⟩ c hc
  · rintro ⟨body, hm, hlength, hall⟩
    obtain ⟨bytes, -, hdigits⟩ :=
      Hex.decodePairs_digits body 0 (fun c hc => Hex.isDigit_iff.2 (hall c hc)) (by omega)
    have hsize : bytes.length = 20 := by
      have heven := Hex.even_of_halves hdigits
      omega
    exact ⟨⟨bytes, hsize⟩, body, hm, hlength, hdigits.imp fun _ _ h => Hex.digit?_eq_some_iff.1 h⟩

theorem parse_missingMarker_iff : parse s = .error .missingMarker ↔ ∀ body, ¬Marked s body := by
  constructor
  · intro h body hm
    rw [parse_marked hm] at h
    split at h
    · cases h
    · split_ifs at h
      cases h
  · exact parse_unmarked

theorem parse_invalidHex_iff (h : Marked s body) {fault : Hex.Fault} :
    parse s = .error (.invalidHex fault) ↔ Hex.decode (Utf8.octets body) = .error fault := by
  rw [parse_marked h]
  cases Hex.decode (Utf8.octets body) with
  | error other => simp
  | ok bytes =>
    refine iff_of_false ?_ (by simp)
    simp only
    split_ifs <;> simp

/-- a length is found wrong only once everything has been found to be a digit -/
theorem parse_invalidLength_iff (h : Marked s body) {count : Nat} : parse s = .error (.invalidLength count) ↔
    (∀ c ∈ body, ∃ d < 16, c.toLower = Hex.digit d) ∧ (Utf8.encode body).length = 2 * count ∧ count ≠ 20 := by
  have hread : parse s = .error (.invalidLength count) ↔
      ∃ bytes, Hex.decode (Utf8.octets body) = .ok bytes ∧ bytes.length = count ∧ count ≠ 20 := by
    rw [parse_marked h]
    cases Hex.decode (Utf8.octets body) with
    | error other => simp
    | ok bytes =>
      simp only [Except.ok.injEq, exists_eq_left']
      split_ifs with hsize
      · simp only [false_iff]
        omega
      · simp only [Except.error.injEq, AddressFault.invalidLength.injEq]
        omega
  have hascii : (∀ c ∈ body, Hex.isDigit c = true) → (Utf8.encode body).length = body.length := by
    intro hall
    have hself := Utf8.octets_ascii fun c hc => Hex.ascii_of_isDigit (hall c hc)
    rw [← List.length_map (f := Utf8.octet)]
    exact congrArg List.length hself
  simp only [hread, Hex.decode_octets_ok_iff, ← Hex.isDigit_iff]
  constructor
  · rintro ⟨bytes, hdigits, rfl, hsize⟩
    have hall := Hex.all_isDigit_iff.2 ⟨_, hdigits⟩
    exact ⟨hall, (hascii hall).trans (Hex.even_of_halves hdigits), hsize⟩
  · rintro ⟨hall, hlength, hsize⟩
    rw [hascii hall] at hlength
    obtain ⟨bytes, -, hdigits⟩ := Hex.decodePairs_digits body 0 hall (by omega)
    have heven := Hex.even_of_halves hdigits
    exact ⟨bytes, hdigits, by omega, hsize⟩

theorem parse_error_iff {fault : AddressFault} : parse s = .error fault ↔ Refuses s fault := by
  by_cases hm : ∃ body, Marked s body
  · obtain ⟨body, hm⟩ := hm
    have hlength : (Utf8.octets body).length = (Utf8.encode body).length := List.length_map _
    cases fault with
    | missingMarker => exact parse_missingMarker_iff
    | invalidHex fault =>
      rw [parse_invalidHex_iff hm]
      cases fault with
      | oddLength => rw [Hex.decode_odd_iff, hlength, Refuses, hm.exists_iff]
      | badDigit c position => rw [Hex.decode_bad_iff, hlength, Refuses, hm.exists_iff, Utf8.octets]
    | invalidLength count => rw [parse_invalidLength_iff hm, Refuses, hm.exists_iff]
  · have hnone := not_exists.1 hm
    rw [parse_unmarked hnone]
    -- every other fault is about what stands behind a marker
    cases fault with
    | missingMarker => exact iff_of_true rfl hnone
    | invalidHex fault =>
      refine iff_of_false (by simp) ?_
      cases fault with
      | oddLength =>
        rintro ⟨body, hbody, -⟩
        exact hnone body hbody
      | badDigit c position =>
        rintro ⟨body, hbody, -⟩
        exact hnone body hbody
    | invalidLength count =>
      refine iff_of_false (by simp) ?_
      rintro ⟨body, hbody, -⟩
      exact hnone body hbody

/-! ## Writing -/

/-- digits of bytes in lower case are what the bytes are written as -/
theorem encode_of_digits {bytes : List UInt8}
    (h : List.Forall₂ (fun c d => d < 16 ∧ c.toLower = Hex.digit d) body (Hex.halves bytes)) :
    Hex.encode bytes = body.map Char.toLower := by
  have hwritten : Hex.encode bytes = (Hex.halves bytes).map Hex.digit := by
    rw [Hex.encode, Hex.halves, List.map_flatMap]
    rfl
  rw [hwritten]
  generalize Hex.halves bytes = ds at h
  induction h with
  | nil => rfl
  | cons hd _ ih => rw [List.map_cons, List.map_cons, hd.2, ih]

/-- an address is written as it was read, in lower case -/
theorem display_of_spelled (h : Spells s a) : a.display = LowerCase.ofText s := by
  obtain ⟨body, hm, -, hdigits⟩ := h
  have hascii : ∀ c ∈ body, c.toNat < 0x80 := by
    intro c hc
    exact Hex.ascii_of_isDigit
      (Hex.all_isDigit_iff.2 ⟨_, hdigits.imp fun _ _ h => Hex.digit?_eq_some_iff.2 h⟩ c hc)
  rw [display, digits, encode_of_digits hdigits, LowerCase.ofText, hm.lowerCase hascii]

theorem parse_display (a : Address) : parse a.display = .ok a := by
  have hm : Marked a.display a.digits := Or.inl String.toList_ofList
  have hread : Hex.decode (Utf8.octets a.digits) = .ok a.bytes := by
    rw [Hex.decode_octets_ok_iff, ← Hex.decode_ok_iff]
    exact Hex.decode_encode a.bytes
  rw [parse_marked hm, hread]
  exact dif_pos a.size

theorem eq_iff_lowerCase (hs : Spells s a) (ht : Spells t b) : a = b ↔ LowerCase.ofText s = LowerCase.ofText t := by
  rw [← display_of_spelled hs, ← display_of_spelled ht]
  exact display_injective.eq_iff.symm

end

/-! ## Order -/

/-- digits in lower case stand in the order of their values -/
theorem digit_lt_iff : ∀ m < 16, ∀ n < 16, Hex.digit m < Hex.digit n ↔ m < n := by decide

theorem digit_eq_iff : ∀ m < 16, ∀ n < 16, Hex.digit m = Hex.digit n ↔ m = n := by decide

/-- byte strings of one length stand in the order of the texts that they are written as -/
theorem compareBytes_eq_lt_iff {as bs : List UInt8} (h : as.length = bs.length) :
    compareBytes as bs = .lt ↔ Hex.encode as < Hex.encode bs := by
  induction as generalizing bs with
  | nil =>
    obtain rfl := List.length_eq_zero_iff.1 h.symm
    simp [compareBytes]
  | cons a as ih =>
    cases bs with
    | nil => cases h
    | cons b bs =>
      have ha : a.toNat < 256 := a.toNat_lt
      have hb : b.toNat < 256 := b.toNat_lt
      have hwritten (x : UInt8) (xs : List UInt8) : Hex.encode (x :: xs) =
          Hex.digit (x.toNat / 16) :: Hex.digit (x.toNat % 16) :: Hex.encode xs := rfl
      rw [hwritten, hwritten, List.cons_lt_cons_iff, List.cons_lt_cons_iff, ← ih (Nat.succ.inj h),
        digit_lt_iff _ (by omega) _ (by omega), digit_lt_iff _ (by omega) _ (by omega),
        digit_eq_iff _ (by omega) _ (by omega), digit_eq_iff _ (by omega) _ (by omega), compareBytes]
      simp only [UInt8.lt_iff_toNat_lt]
      rcases Nat.lt_trichotomy a.toNat b.toNat with hlt | heq | hgt
      · rw [if_pos hlt]
        simp only [true_iff]
        omega
      · rw [if_neg (by omega), if_neg (by omega), heq]
        simp
      · rw [if_neg (by omega), if_pos hgt]
        simp only [reduceCtorEq, false_iff]
        omega

theorem compareBytes_eq_eq_iff {as bs : List UInt8} : compareBytes as bs = .eq ↔ as = bs := by
  induction as generalizing bs with
  | nil => cases bs <;> simp [compareBytes]
  | cons a as ih =>
    cases bs with
    | nil => simp [compareBytes]
    | cons b bs =>
      rw [compareBytes, List.cons.injEq, ← ih]
      simp only [UInt8.lt_iff_toNat_lt, ← UInt8.toNat_inj]
      rcases Nat.lt_trichotomy a.toNat b.toNat with hlt | heq | hgt
      · simp [hlt, Nat.ne_of_lt hlt]
      · simp [heq]
      · simp [hgt, Nat.lt_asymm hgt, Nat.ne_of_gt hgt]

/-- addresses stand in the order of their texts -/
theorem compare_display (a b : Address) : compare a b = compare a.display b.display := by
  have hlt : compareBytes a.bytes b.bytes = .lt ↔ a.display < b.display := by
    rw [compareBytes_eq_lt_iff (a.size.trans b.size.symm), String.lt_iff_toList_lt, display, display,
      String.toList_ofList, String.toList_ofList, List.cons_lt_cons_iff, List.cons_lt_cons_iff]
    simp [digits]
  have heq : compareBytes a.bytes b.bytes = .eq ↔ a.display = b.display := by
    rw [compareBytes_eq_eq_iff, display_injective.eq_iff]
    exact ⟨eq_of_bytes, congrArg bytes⟩
  show compareBytes a.bytes b.bytes = compareOfLessAndEq a.display b.display
  rw [compareOfLessAndEq]
  split_ifs with h1 h2
  · exact hlt.2 h1
  · exact heq.2 h2
  · cases hcompare : compareBytes a.bytes b.bytes with
    | lt => exact absurd (hlt.1 hcompare) h1
    | eq => exact absurd (heq.1 hcompare) h2
    | gt => rfl

end Address

/-! ## JSON -/

namespace Json

theorem toAddress_ok_iff {v : Json} {a : Address} : toAddress v = .ok a ↔ ∃ s, v = .text s ∧ Address.parse s = .ok a := by
  constructor
  · intro h
    cases v with
    | text s =>
      refine ⟨s, rfl, ?_⟩
      rw [toAddress] at h
      cases hread : Address.parse s with
      | error fault =>
        rw [hread] at h
        cases h
      | ok b =>
        rw [hread] at h
        rw [Except.ok.inj h]
    | _ => cases h
  · rintro ⟨s, rfl, hread⟩
    rw [toAddress, hread]
    rfl

theorem parse?_ofAddress (a : Address) : (parse? (ofAddress a).compact).map toAddress = some (.ok a) := by
  have hread : parse? (ofAddress a).compact = some (ofAddress a) := parse?_compact rfl rfl (Nat.zero_le _)
  rw [hread, Option.map_some]
  exact congrArg some (toAddress_ok_iff.2 ⟨_, rfl, Address.parse_display a⟩)

/-- a text in JSON is refused as the text is, and other values for being none -/
theorem toAddress_error_iff {v : Json} {fault : AddressFault} : toAddress v = .error fault ↔
    (∃ s other, v = .text s ∧ fault = .notAddress other ∧ Address.parse s = .error other) ∨
    (fault = .notText ∧ ∀ s, v ≠ .text s) := by
  cases v with
  | text s =>
    rw [toAddress]
    cases hread : Address.parse s with
    | error other => simp [Except.mapError, hread, eq_comm]
    | ok a => simp [Except.mapError, hread]
  | _ => simp [toAddress, eq_comm]

end Json

namespace Address

/-- **Addresses and their texts.** An address is read from a text exactly if the text spells it, and there is one just
if forty digits of either case stand behind a marker; any other text is refused for the first thing that is wrong with
it. What is written is read back, and it is what was read in lower case: so two texts name one address just if they
are equal but for their case. In JSON an address is such a text. Addresses stand in the order of their texts. -/
theorem addresses_spelled (s t : String) (a b : Address) :
    (parse s = .ok a ↔ Spells s a) ∧
    ((∃ x, parse s = .ok x) ↔
      ∃ body, Marked s body ∧ body.length = 40 ∧ ∀ c ∈ body, ∃ d < 16, c.toLower = Hex.digit d) ∧
    (∀ fault, parse s = .error fault ↔ Refuses s fault) ∧
    parse a.display = .ok a ∧
    (parse s = .ok a → a.display = LowerCase.ofText s) ∧
    (parse s = .ok a → parse t = .ok b → (a = b ↔ LowerCase.ofText s = LowerCase.ofText t)) ∧
    (∀ v, Json.toAddress v = .ok a ↔ ∃ text, v = .text text ∧ Spells text a) ∧
    (∀ v fault, Json.toAddress v = .error fault ↔
      (∃ text other, v = .text text ∧ fault = .notAddress other ∧ Refuses text other) ∨
      (fault = .notText ∧ ∀ text, v ≠ .text text)) ∧
    (Json.toAddress (.text s) = .ok a → Json.ofAddress a = .text (LowerCase.ofText s)) ∧
    (Json.parse? (Json.ofAddress a).compact).map Json.toAddress = some (.ok a) ∧
    compare a b = compare a.display b.display := by
  refine ⟨parse_ok_iff, ?_, fun _ => parse_error_iff, parse_display a, ?_, ?_, ?_, ?_, ?_, Json.parse?_ofAddress a,
    compare_display a b⟩
  · simp only [parse_ok_iff]
    exact exists_spelled_iff
  · intro h
    exact display_of_spelled (parse_ok_iff.1 h)
  · intro ha hb
    exact eq_iff_lowerCase (parse_ok_iff.1 ha) (parse_ok_iff.1 hb)
  · intro v
    simp only [Json.toAddress_ok_iff, parse_ok_iff]
  · intro v fault
    simp only [Json.toAddress_error_iff, parse_error_iff]
  · intro h
    obtain ⟨text, htext, hread⟩ := Json.toAddress_ok_iff.1 h
    cases htext
    exact congrArg Json.text (display_of_spelled (parse_ok_iff.1 hread))

/-- twenty bytes with letters among their digits -/
def lettered : Address := ⟨List.replicate 20 0xAB, rfl⟩

theorem lettered_same : parse "0XabABabABabABabABabABabABabABabABabABabAB" = .ok lettered ∧
    parse "0xABababababababababababababababababababab" = .ok lettered ∧
    LowerCase.ofText "0XabABabABabABabABabABabABabABabABabABabAB" =
      LowerCase.ofText "0xABababababababababababababababababababab" := by
  have h1 : parse "0XabABabABabABabABabABabABabABabABabABabAB" = .ok lettered := by decide +kernel
  have h2 : parse "0xABababababababababababababababababababab" = .ok lettered := by decide +kernel
  exact ⟨h1, h2, ((addresses_spelled _ _ lettered lettered).2.2.2.2.2.1 h1 h2).1 rfl⟩

end Address

end ChainBridge
