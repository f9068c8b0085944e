/-
Decimal places in closed form.

Dividing by ten until zero or one is left looks at the leading digit as well as at the length: 19 has one place and 20
has two. What is counted is the least p with n < 2 * 10 ^ p (`decimalPlaces_le_iff`), and everything else follows from
that. `countPlaces` is the same loop with a counter of 32 bits, which runs over for scale factors that have more places
than the counter has numbers (`countPlaces_eq`); one that fits into a word is far from it.
-/
import Mathlib
import ChainBridge.Defi.Settings

namespace ChainBridge.Defi

/-- both loops go on as long as more than one is left, so the bound grows tenfold with each division -/
theorem decimalPlaces_le_iff (n p : Nat) : decimalPlaces n ≤ p ↔ n < 2 * 10 ^ p := by
  induction n using Nat.strong_induction_on generalizing p with
  | _ n ih =>
    rcases Nat.lt_or_ge 1 n with hn | hn
    · rw [decimalPlaces_of_one_lt hn]
      cases p with
      | zero =>
        rw [pow_zero]
        omega
      | succ p =>
        have hrest := ih (n / 10) (Nat.div_lt_self (by omega) (by omega)) p
        rw [Nat.add_le_add_iff_right, hrest, Nat.div_lt_iff_lt_mul (by omega), pow_succ, mul_assoc]
    · rw [decimalPlaces_of_le_one hn]
      have hpow : 0 < 10 ^ p := Nat.pow_pos (by omega)
      omega

-- the leading digit decides between two factors of one length
example : decimalPlaces 19 = 1 ∧ decimalPlaces 20 = 2 := by cbv

theorem decimalPlaces_isLeast (n : Nat) : IsLeast {p | n < 2 * 10 ^ p} (decimalPlaces n) :=
  ⟨(decimalPlaces_le_iff n _).1 le_rfl, fun p hp => (decimalPlaces_le_iff n p).2 hp⟩

theorem decimalPlaces_pow (k : Nat) : decimalPlaces (10 ^ k) = k := by
  refine le_antisymm ((decimalPlaces_le_iff _ _).2 ?_) ?_
  · have hpow : 0 < 10 ^ k := Nat.pow_pos (by omega)
    omega
  · by_contra hlt
    -- a power of ten is more than twice the one before
    have hshort : 10 ^ k < 2 * 10 ^ (k - 1) := (decimalPlaces_le_iff _ _).1 (by omega)
    have hpow : 10 ^ k = 10 ^ (k - 1) * 10 := by rw [← pow_succ, Nat.sub_add_cancel (by omega)]
    omega

theorem decimalPlaces_mono : Monotone decimalPlaces := by
  intro n m h
  exact (decimalPlaces_le_iff n _).2 (h.trans_lt ((decimalPlaces_le_iff m _).1 le_rfl))

theorem decimalPlaces_le_digits (n : Nat) : decimalPlaces n ≤ (Nat.digits 10 n).length := by
  refine (decimalPlaces_le_iff n _).2 ?_
  have hdigits : n < 10 ^ (Nat.digits 10 n).length := Nat.lt_base_pow_length_digits (by omega)
  omega

/-- a scale factor of 256 bits has no more than 77 places -/
theorem decimalPlaces_word {n : Nat} (h : n < 2 ^ 256) : decimalPlaces n ≤ 77 :=
  (decimalPlaces_le_iff n 77).2 (h.trans (by norm_num))

/-! ## The counter -/

/-- the divisions by ten until zero or one is left, in a counter of 32 bits; nothing, if one more does not fit -/
def countPlaces (value : Nat) (places : UInt32) : Option UInt32 :=
  if value ≤ 1 then some places
  else if places.toNat + 1 < 2 ^ 32 then countPlaces (value / 10) (places + 1)
  else none
termination_by value

/-- the counter holds the places as long as they fit, and runs over otherwise -/
theorem countPlaces_eq (value : Nat) (places : UInt32) : countPlaces value places =
    if places.toNat + decimalPlaces value < 2 ^ 32 then some (places + UInt32.ofNat (decimalPlaces value))
    else none := by
  induction value using Nat.strong_induction_on generalizing places with
  | _ value ih =>
    have hplaces := places.toNat_lt
    rw [countPlaces]
    rcases Nat.lt_or_ge 1 value with hv | hv
    · rw [if_neg (by omega), decimalPlaces_of_one_lt hv]
      by_cases hnext : places.toNat + 1 < 2 ^ 32
      · have htoNat : (places + 1).toNat = places.toNat + 1 := by
          rw [UInt32.toNat_add, UInt32.toNat_one, Nat.mod_eq_of_lt hnext]
        have hsum : places + 1 + UInt32.ofNat (decimalPlaces (value / 10)) =
            places + UInt32.ofNat (decimalPlaces (value / 10) + 1) := by
          rw [UInt32.ofNat_add, UInt32.add_assoc, UInt32.add_comm 1]
          rfl
        rw [if_pos hnext, ih (value / 10) (Nat.div_lt_self (by omega) (by omega)), htoNat, hsum, Nat.add_assoc,
          Nat.add_comm 1]
      · rw [if_neg hnext, if_neg (by omega)]
    · rw [if_pos hv, decimalPlaces_of_le_one hv, if_pos (by omega)]
      simp

/-- **Decimal places in closed form.** The places of a scale factor n are the least p with n < 2 * 10 ^ p. So a power
of ten has its exponent as places, a larger factor has no fewer, and none has more than it has digits. A counter of 32
bits runs over just if there are 2 ^ 32 places or more; a factor below 2 ^ 256 has at most 77, and for it the counter
ends at the number of places. -/
theorem places_closed :
    (∀ n, IsLeast {p | n < 2 * 10 ^ p} (decimalPlaces n)) ∧
    (∀ k, decimalPlaces (10 ^ k) = k) ∧ Monotone decimalPlaces ∧
    (∀ n, decimalPlaces n ≤ (Nat.digits 10 n).length) ∧
    (∀ n, countPlaces n 0 = none ↔ 2 ^ 32 ≤ decimalPlaces n) ∧
    ∀ n < 2 ^ 256, decimalPlaces n ≤ 77 ∧ ∃ places, countPlaces n 0 = some places ∧ places.toNat = decimalPlaces n := by
  refine ⟨decimalPlaces_isLeast, decimalPlaces_pow, decimalPlaces_mono, decimalPlaces_le_digits, fun n => ?_,
    fun n hn => ?_⟩
  · rw [countPlaces_eq, UInt32.toNat_zero, Nat.zero_add]
    split_ifs with hfits
    · exact iff_of_false (by simp) (by omega)
    · exact iff_of_true rfl (by omega)
  · have hle := decimalPlaces_word hn
    refine ⟨hle, UInt32.ofNat (decimalPlaces n), ?_, ?_⟩
    · rw [countPlaces_eq, if_pos (by rw [UInt32.toNat_zero]; omega), UInt32.zero_add]
    · rw [UInt32.toNat_ofNat']
      omega

/-- the largest word has 77 places, and the counter holds them -/
theorem places_closed_largest :
    2 ^ 256 - 1 < 2 ^ 256 ∧ decimalPlaces (2 ^ 256 - 1) = 77 ∧
    ∃ places, countPlaces (2 ^ 256 - 1) 0 = some places ∧ places.toNat = 77 := by
  obtain ⟨-, hpow, hmono, -, -, hword⟩ := places_closed
  have hsmall : 2 ^ 256 - 1 < 2 ^ 256 := by norm_num
  obtain ⟨hle, places, hcount, hplaces⟩ := hword _ hsmall
  have hge : 77 ≤ decimalPlaces (2 ^ 256 - 1) := by
    have hpower : decimalPlaces (10 ^ 77) ≤ decimalPlaces (2 ^ 256 - 1) := hmono (by norm_num)
    rwa [hpow] at hpower
  exact ⟨hsmall, le_antisymm hle hge, places, hcount, hplaces.trans (le_antisymm hle hge)⟩

end ChainBridge.Defi
