/-
Counts are the amounts below 2^64.

Both are read from the same digits (`digits_ok`), amounts of at most 64 of them and counts of at most 16. Since the
digits have no leading zero, sixteen of them are those of the numbers below 2^64 and no others
(`Text.Hex.length_le_iff`): so whatever is short enough for a count fits, and reading it digit by digit goes past 64
bits nowhere (`decodeCount_of_digits`). A count is written by its sixteen digits without the zeros in front, which is
how the amount is written (`encodeCount_eq`).

- `counts_agree`: a count is read exactly where an amount below 2^64 is; other texts give the fault that they give for
  an amount, but that what is too wide for a count is said to be so. Counts are written as amounts and read back.
-/
import Mathlib
import ChainBridge.Proofs.Quantity.Amounts

namespace ChainBridge

/-- whether a text was refused for its width -/
def QuantityFault.IsOverflow : QuantityFault → Prop
  | .overflow .. => True
  | _ => False

namespace Quantity

open Text

/-- whether a text is a number that has too many bits for a count -/
def TooWide (s : String) : Prop :=
  (∃ n, decodeAmount s = .ok n ∧ 2 ^ 64 ≤ n) ∨ ∃ fault, decodeAmount s = .error fault ∧ fault.IsOverflow

/-! ## Reading -/

section

variable {s : String} {ds : List Char}

/-- the digits of a quantity are digits, at least one, and the first is no zero but in zero itself -/
theorem digits_ok (h : digits s = .ok ds) :
    ds ≠ [] ∧ (1 < ds.length → ds.head? ≠ some '0') ∧ ∀ c ∈ ds, Hex.isDigit c = true := by
  unfold digits at h
  split at h
  · cases h
  · cases h
  · rename_i body hempty hmark
    split_ifs at h with hlead hall
    obtain rfl := Except.ok.inj h
    refine ⟨?_, ?_, ?_⟩
    · rintro rfl
      exact hempty rfl
    · intro hlong h0
      exact hlead ⟨hlong, h0⟩
    · simpa using hall

/-- nothing is too wide before its digits are known -/
theorem digits_error {fault : QuantityFault} (h : digits s = .error fault) : ¬fault.IsOverflow := by
  unfold digits at h
  intro hwide
  split at h
  · cases h
    exact hwide
  · cases h
    exact hwide
  · split_ifs at h
    · cases h
      exact hwide
    · cases h
      exact hwide

theorem decodeAmount_of_error {fault : QuantityFault} (h : digits s = .error fault) :
    decodeAmount s = .error fault := by
  rw [decodeAmount, h]
  rfl

theorem decodeCount_of_error {fault : QuantityFault} (h : digits s = .error fault) : decodeCount s = .error fault := by
  rw [decodeCount, h]
  rfl

theorem decodeAmount_of_digits (h : digits s = .ok ds) :
    decodeAmount s = if 64 < ds.length then .error (.overflow 256 s) else .ok (Hex.value ds) := by
  obtain ⟨hne, -, hall⟩ := digits_ok h
  rw [decodeAmount, h]
  simp only [bind, Except.bind, Hex.number?_digits hall hne]

/-- sixteen digits never go past 64 bits, so the parser of machine numbers refuses none of them -/
theorem decodeCount_of_digits (h : digits s = .ok ds) :
    decodeCount s = if 2 ^ 64 ≤ Hex.value ds then .error (.overflow 64 s) else .ok (UInt64.ofNat (Hex.value ds)) := by
  obtain ⟨hne, hhead, hall⟩ := digits_ok h
  have hwidth : ds.length ≤ 16 ↔ Hex.value ds < 2 ^ 64 := by
    rw [Hex.length_le_iff hall hne hhead (by decide)]
    norm_num
  rw [decodeCount, h]
  by_cases hfits : Hex.value ds < 2 ^ 64
  · have hshort : ¬16 < ds.length := Nat.not_lt.2 (hwidth.2 hfits)
    rw [if_neg (Nat.not_le.2 hfits)]
    simp only [bind, Except.bind, hshort, if_false, Hex.number64?_digits hall hne, hfits, if_true]
  · have hlong : 16 < ds.length := Nat.not_le.1 (mt hwidth.1 hfits)
    rw [if_pos (Nat.not_lt.1 hfits)]
    simp only [bind, Except.bind, hlong, if_true]

/-- what is too wide for an amount is too wide for a count -/
theorem large_of_wide (h : digits s = .ok ds) (hwide : 64 < ds.length) : 2 ^ 64 ≤ Hex.value ds := by
  obtain ⟨hne, hhead, hall⟩ := digits_ok h
  have hlong : ¬ds.length ≤ 16 := by omega
  rw [Hex.length_le_iff hall hne hhead (by decide)] at hlong
  norm_num at hlong ⊢
  exact hlong

theorem decodeCount_ok_iff {n : Nat} :
    (decodeCount s).map UInt64.toNat = .ok n ↔ decodeAmount s = .ok n ∧ n < 2 ^ 64 := by
  cases hd : digits s with
  | error fault =>
    rw [decodeCount_of_error hd, decodeAmount_of_error hd]
    simp [Except.map]
  | ok ds =>
    rw [decodeCount_of_digits hd, decodeAmount_of_digits hd]
    by_cases hwide : 64 < ds.length
    · rw [if_pos (large_of_wide hd hwide), if_pos hwide]
      simp [Except.map]
    rw [if_neg hwide, Except.ok.injEq]
    by_cases hfits : Hex.value ds < 2 ^ 64
    · rw [if_neg (Nat.not_le.2 hfits), Except.map, UInt64.toNat_ofNat_of_lt' hfits, Except.ok.injEq]
      constructor
      · rintro rfl
        exact ⟨rfl, hfits⟩
      · exact And.left
    · rw [if_pos (Nat.not_lt.1 hfits)]
      constructor
      · intro h
        cases h
      · rintro ⟨rfl, h⟩
        exact absurd h hfits

/-- with digits given, the only fault left is that there are too many -/
theorem tooWide_iff (h : digits s = .ok ds) : TooWide s ↔ 2 ^ 64 ≤ Hex.value ds := by
  rw [TooWide, decodeAmount_of_digits h]
  by_cases hwide : 64 < ds.length
  · rw [if_pos hwide]
    constructor
    · intro _
      exact large_of_wide h hwide
    · intro _
      exact .inr ⟨_, rfl, trivial⟩
  · rw [if_neg hwide]
    constructor
    · rintro (⟨n, hn, hlarge⟩ | ⟨fault, hfault, -⟩)
      · rwa [Except.ok.inj hn]
      · cases hfault
    · intro hlarge
      exact .inl ⟨_, rfl, hlarge⟩

/-- without digits nothing is too wide -/
theorem not_tooWide {fault : QuantityFault} (h : digits s = .error fault) : ¬TooWide s := by
  rw [TooWide, decodeAmount_of_error h]
  rintro (⟨n, hn, -⟩ | ⟨wide, hwide, hover⟩)
  · cases hn
  · obtain rfl := Except.error.inj hwide
    exact digits_error h hover

theorem decodeCount_error_iff {fault : QuantityFault} : decodeCount s = .error fault ↔
    (decodeAmount s = .error fault ∧ ¬fault.IsOverflow) ∨ (fault = .overflow 64 s ∧ TooWide s) := by
  cases hd : digits s with
  | error other =>
    rw [decodeCount_of_error hd, decodeAmount_of_error hd]
    constructor
    · intro h
      obtain rfl := Except.error.inj h
      exact .inl ⟨rfl, digits_error hd⟩
    · rintro (⟨h, -⟩ | ⟨-, hwide⟩)
      · rw [Except.error.inj h]
      · exact absurd hwide (not_tooWide hd)
  | ok ds =>
    -- an amount has no other fault than its width
    have hamount : ¬(decodeAmount s = .error fault ∧ ¬fault.IsOverflow) := by
      rw [decodeAmount_of_digits hd]
      rintro ⟨h, hnot⟩
      split_ifs at h
      obtain rfl := Except.error.inj h
      exact hnot trivial
    rw [decodeCount_of_digits hd, tooWide_iff hd, or_iff_right hamount]
    by_cases hlarge : 2 ^ 64 ≤ Hex.value ds
    · rw [if_pos hlarge, Except.error.injEq, eq_comm, and_iff_left hlarge]
    · rw [if_neg hlarge]
      constructor
      · intro h
        cases h
      · intro h
        exact absurd h.2 hlarge

end

/-! ## Writing -/

/-- digits at fixed places stand for the number less what is too high for them -/
theorem value_places (k n : Nat) :
    Hex.value ((List.range k).reverse.map fun i => Hex.digit (n / Nat.pow 16 i % 16)) = n % 16 ^ k := by
  induction k generalizing n with
  | zero => simp [Hex.value, Nat.mod_one]
  | succ k ih =>
    -- the lowest place is split off, so that the others are those of a sixteenth of the number
    have hplaces : (List.range (k + 1)).reverse.map (fun i => Hex.digit (n / Nat.pow 16 i % 16)) =
        (List.range k).reverse.map (fun i => Hex.digit (n / 16 / Nat.pow 16 i % 16)) ++ [Hex.digit (n % 16)] := by
      rw [List.range_succ_eq_map, List.reverse_cons, List.map_append, ← List.map_reverse, List.map_map,
        List.map_singleton]
      congr 1
      · apply List.map_congr_left
        intro i _
        rw [Function.comp_apply, Nat.div_div_eq_div_mul, Nat.pow_eq, Nat.pow_eq, Nat.succ_eq_add_one, pow_succ']
      · simp
    calc Hex.value ((List.range (k + 1)).reverse.map fun i => Hex.digit (n / Nat.pow 16 i % 16))
        = 16 * (n / 16 % 16 ^ k) + n % 16 := by
          rw [hplaces, Hex.value_concat, ih, Hex.digit?_digit _ (Nat.mod_lt _ (by decide)), Option.getD_some]
      _ = n % 16 ^ (k + 1) := by
          rw [pow_succ', Nat.mod_mul]
          omega

/-- a count is written as the amount -/
theorem encodeCount_eq (n : UInt64) : encodeCount n = encodeAmount n.toNat := by
  have hvalue : Hex.value ((countDigits n).dropWhile (· == '0')) = n.toNat := by
    rw [Hex.value_dropWhile, countDigits, value_places]
    exact Nat.mod_eq_of_lt n.toNat_lt
  have hdigit : ∀ c ∈ (countDigits n).dropWhile (· == '0'), ∃ d < 16, c = Hex.digit d := by
    intro c hc
    obtain ⟨i, -, rfl⟩ := List.mem_map.1 ((List.dropWhile_sublist _).subset hc)
    exact ⟨_, Nat.mod_lt _ (by decide), rfl⟩
  have hlower : ((countDigits n).dropWhile (· == '0')).map Char.toLower = (countDigits n).dropWhile (· == '0') := by
    conv_rhs => rw [← List.map_id ((countDigits n).dropWhile (· == '0'))]
    apply List.map_congr_left
    intro c hc
    obtain ⟨d, hd, rfl⟩ := hdigit c hc
    exact Hex.toLower_of_digit (Hex.digit?_digit d hd)
  rw [encodeCount, encodeAmount]
  by_cases hne : (countDigits n).dropWhile (· == '0') = []
  · have hzero : n.toNat = 0 := by
      rw [← hvalue, hne]
      rfl
    rw [hne, hzero, Hex.digits_of_lt (by decide)]
    rfl
  · have hdigits := Hex.digits_value (fun c hc => ?_) hne (fun _ h0 => ?_)
    · rw [hvalue, hlower] at hdigits
      simp only [List.isEmpty_iff, hne, if_false, hdigits]
    · obtain ⟨d, hd, rfl⟩ := hdigit c hc
      exact Hex.isDigit_digit hd
    · have hhead := List.head?_dropWhile_not (· == '0') (countDigits n)
      rw [h0] at hhead
      exact absurd hhead (by decide)

theorem decodeCount_encodeCount (n : UInt64) : decodeCount (encodeCount n) = .ok n := by
  have hwide : n.toNat < 2 ^ 256 := lt_of_lt_of_le n.toNat_lt (by norm_num)
  have hread := decode_encode n.toNat
  rw [if_pos hwide, ← encodeCount_eq] at hread
  have hcount := decodeCount_ok_iff.2 ⟨hread, n.toNat_lt⟩
  cases hm : decodeCount (encodeCount n) with
  | error fault =>
    rw [hm] at hcount
    cases hcount
  | ok m =>
    rw [hm] at hcount
    rw [UInt64.toNat_inj.1 (Except.ok.inj hcount)]

/-- **Counts are small amounts.** A count is read from a text exactly if an amount below 2^64 is, and it is the same
number. Any other text gives the fault that it gives for an amount, but that it is too wide for 64 bits where there is
an amount that large or it is too wide for that. Counts are written as amounts, and what is written is read back. -/
theorem counts_agree (s : String) (count : UInt64) :
    (∀ n : Nat, (decodeCount s).map UInt64.toNat = .ok n ↔ decodeAmount s = .ok n ∧ n < 2 ^ 64) ∧
    (∀ fault, decodeCount s = .error fault ↔
      (decodeAmount s = .error fault ∧ ¬fault.IsOverflow) ∨ (fault = .overflow 64 s ∧ TooWide s)) ∧
    encodeCount count = encodeAmount count.toNat ∧
    decodeCount (encodeCount count) = .ok count := by
  refine ⟨?_, ?_, ?_, ?_⟩
  · intro n
    exact decodeCount_ok_iff
  · intro fault
    exact decodeCount_error_iff
  · exact encodeCount_eq count
  · exact decodeCount_encodeCount count

end Quantity

end ChainBridge
