/-
Digits of a hexadecimal text and the numbers that they stand for.

A character is a digit when its lower-case form is what the digit's value is written as (`digit?_eq_some_iff`). A run of
digits without a leading zero is how its value is written, but for the case of its letters (`digits_value`), and the
number of digits that a number is written with says how large it is (`length_digits_le_iff`).
-/
import Mathlib
import ChainBridge.Text.Hex

namespace ChainBridge.Text.Hex

/-! ## One digit -/

theorem toLower_of_lower {c : Char} (h : c.toNat < 65 ∨ 90 < c.toNat) : c.toLower = c := by
  unfold Char.toLower
  rw [dif_neg]
  rintro ⟨hlow, hhigh⟩
  have h1 : 65 ≤ c.toNat := hlow
  have h2 : c.toNat ≤ 90 := hhigh
  omega

theorem digit?_eq_none {c : Char} (h : 103 ≤ c.toNat) : digit? c = none := by
  have hle : ∀ d : Char, d.toNat < 103 → ¬c ≤ d := by
    intro d hd hcd
    have hnat : c.toNat ≤ d.toNat := hcd
    omega
  rw [digit?, if_neg fun hc => hle _ (by decide) hc.2, if_neg fun hc => hle _ (by decide) hc.2,
    if_neg fun hc => hle _ (by decide) hc.2]

/-- a character is a digit if its lower-case form is what the value of the digit is written as -/
theorem digit?_eq_some_iff {c : Char} {d : Nat} : digit? c = some d ↔ d < 16 ∧ c.toLower = digit d := by
  have hlow : ∀ n < 103, ∀ d < 16, digit? (Char.ofNat n) = some d ↔ (Char.ofNat n).toLower = digit d := by
    decide +kernel
  have hsmall : ∀ n < 103, ∀ d ∈ digit? (Char.ofNat n), d < 16 := by decide +kernel
  have hdigit : ∀ d < 16, (digit d).toNat < 103 := by decide
  by_cases hc : c.toNat < 103
  · rw [← Char.ofNat_toNat c]
    constructor
    · intro h
      have hd := hsmall c.toNat hc d h
      exact ⟨hd, (hlow c.toNat hc d hd).1 h⟩
    · rintro ⟨hd, h⟩
      exact (hlow c.toNat hc d hd).2 h
  · constructor
    · intro h
      rw [digit?_eq_none (by omega)] at h
      exact absurd h (by simp)
    · rintro ⟨hd, h⟩
      rw [toLower_of_lower (by omega)] at h
      have hnat := hdigit d hd
      rw [← h] at hnat
      omega

theorem isDigit_iff {c : Char} : isDigit c = true ↔ ∃ d < 16, c.toLower = digit d := by
  rw [isDigit, Option.isSome_iff_exists]
  exact exists_congr fun d => digit?_eq_some_iff

theorem isDigit_digit {d : Nat} (h : d < 16) : isDigit (digit d) = true := by
  rw [isDigit, digit?_digit d h]
  rfl

/-- what is written is in lower case -/
theorem toLower_of_digit {c : Char} {d : Nat} (h : digit? c = some d) : c.toLower = digit d :=
  (digit?_eq_some_iff.1 h).2

/-- zero has one digit only -/
theorem digit?_eq_zero_iff {c : Char} : digit? c = some 0 ↔ c = '0' := by
  constructor
  · intro h
    have hlower : c.toLower = '0' := toLower_of_digit h
    by_cases hc : c.toNat < 65 ∨ 90 < c.toNat
    · rwa [toLower_of_lower hc] at hlower
    · have hupper : ∀ n < 26, (Char.ofNat (65 + n)).toLower ≠ '0' := by decide
      have hn := hupper (c.toNat - 65) (by omega)
      rw [show 65 + (c.toNat - 65) = c.toNat by omega, Char.ofNat_toNat] at hn
      exact absurd hlower hn
  · rintro rfl
    rfl

/-! ## Runs of digits -/

/-- digits stand for what their values come to in base 16 -/
theorem value_eq_ofDigits {cs : List Char} {ds : List Nat}
    (h : List.Forall₂ (fun c d => digit? c = some d) cs ds) : value cs = Nat.ofDigits 16 ds.reverse := by
  rw [← List.forall₂_reverse_iff] at h
  generalize hr : ds.reverse = rs at *
  obtain ⟨cs, rfl⟩ : ∃ l, cs = l.reverse := ⟨cs.reverse, by simp⟩
  rw [List.reverse_reverse] at h
  clear hr ds
  induction h with
  | nil => rfl
  | cons hd _ ih => rw [List.reverse_cons, value_concat, ih, hd, Nat.ofDigits_cons, Option.getD_some]; ring

/-- digits are characters that have values -/
theorem all_isDigit_iff {cs : List Char} :
    (∀ c ∈ cs, isDigit c = true) ↔ ∃ ds, List.Forall₂ (fun c d => digit? c = some d) cs ds := by
  induction cs with
  | nil => exact ⟨fun _ => ⟨[], .nil⟩, fun _ c hc => absurd hc List.not_mem_nil⟩
  | cons c cs ih =>
    rw [List.forall_mem_cons, ih]
    constructor
    · rintro ⟨hc, ds, hds⟩
      obtain ⟨d, hd⟩ := Option.isSome_iff_exists.1 hc
      exact ⟨d :: ds, .cons hd hds⟩
    · rintro ⟨_, hds⟩
      cases hds with
      | cons hd hds => exact ⟨Option.isSome_iff_exists.2 ⟨_, hd⟩, _, hds⟩

theorem digits_of_lt {n : Nat} (h : n < 16) : digits n = [digit n] := by
  rw [digits, if_pos h]

theorem digits_concat {n d : Nat} (hn : 0 < n) (hd : d < 16) : digits (16 * n + d) = digits n ++ [digit d] := by
  rw [digits, if_neg (by omega)]
  rw [show (16 * n + d) / 16 = n by omega, show (16 * n + d) % 16 = d by omega]

/-- a run of digits that does not start with zero stands for more than zero -/
theorem value_pos {cs : List Char} (h : ∀ c ∈ cs, isDigit c = true) (hne : cs ≠ []) (hhead : cs.head? ≠ some '0') :
    0 < value cs := by
  induction cs using List.reverseRecOn with
  | nil => exact absurd rfl hne
  | append_singleton cs c ih =>
    obtain ⟨d, hd⟩ := Option.isSome_iff_exists.1 (h c (by simp))
    rw [value_concat, hd, Option.getD_some]
    by_cases hnil : cs = []
    · subst hnil
      have hd0 : d ≠ 0 := by
        rintro rfl
        exact hhead (by rw [digit?_eq_zero_iff.1 hd]; rfl)
      omega
    · rw [List.head?_append_of_ne_nil _ hnil] at hhead
      have hpos := ih (fun x hx => h x (List.mem_append_left _ hx)) hnil hhead
      omega

/-- **One spelling.** Digits without a leading zero are what their value is written as, in lower case. -/
theorem digits_value {cs : List Char} (h : ∀ c ∈ cs, isDigit c = true) (hne : cs ≠ [])
    (hhead : 1 < cs.length → cs.head? ≠ some '0') : digits (value cs) = cs.map Char.toLower := by
  induction cs using List.reverseRecOn with
  | nil => exact absurd rfl hne
  | append_singleton cs c ih =>
    obtain ⟨d, hd⟩ := Option.isSome_iff_exists.1 (h c (by simp))
    have hsmall := (digit?_eq_some_iff.1 hd).1
    rw [value_concat, hd, Option.getD_some, List.map_append, List.map_singleton, toLower_of_digit hd]
    by_cases hnil : cs = []
    · subst hnil
      rw [show value [] = 0 from rfl, Nat.mul_zero, Nat.zero_add, digits_of_lt hsmall]
      rfl
    · have hlength : 1 < (cs ++ [c]).length := by
        have hpos := List.length_pos_iff.2 hnil
        rw [List.length_append, List.length_singleton]
        omega
      have hfirst := hhead hlength
      rw [List.head?_append_of_ne_nil _ hnil] at hfirst
      have hdigits : ∀ x ∈ cs, isDigit x = true := fun x hx => h x (List.mem_append_left _ hx)
      rw [digits_concat (value_pos hdigits hnil hfirst) hsmall, ih hdigits hnil fun _ => hfirst]

/-! ## Written numbers -/

theorem digits_ne_nil (n : Nat) : digits n ≠ [] := by
  rw [digits]
  split_ifs
  · exact List.cons_ne_nil _ _
  · exact List.append_ne_nil_of_right_ne_nil _ (List.cons_ne_nil _ _)

theorem isDigit_of_mem_digits {n : Nat} {c : Char} (h : c ∈ digits n) : isDigit c = true := by
  induction n using Nat.strongRecOn with
  | ind n ih =>
    rw [digits] at h
    split_ifs at h with hn
    · rw [List.mem_singleton.1 h]
      exact isDigit_digit hn
    · rcases List.mem_append.1 h with h | h
      · exact ih (n / 16) (by omega) h
      · rw [List.mem_singleton.1 h]
        exact isDigit_digit (by omega)

/-- only zero is written with a zero in front -/
theorem digits_head {n : Nat} (h : (digits n).head? = some '0') : n = 0 := by
  induction n using Nat.strongRecOn with
  | ind n ih =>
    rw [digits] at h
    split_ifs at h with hn
    · have hzero : ∀ d < 16, digit d = '0' → d = 0 := by decide
      exact hzero n hn (Option.some.inj h)
    · rw [List.head?_append_of_ne_nil _ (digits_ne_nil _)] at h
      have hzero := ih (n / 16) (by omega) h
      omega

/-- the number of digits says how large a number is -/
theorem length_digits_le_iff {n k : Nat} (hk : 0 < k) : (digits n).length ≤ k ↔ n < 16 ^ k := by
  induction k generalizing n with
  | zero => exact absurd hk (by decide)
  | succ k ih =>
    rw [digits]
    split_ifs with hn
    · have hpow : 16 ≤ 16 ^ (k + 1) := Nat.le_self_pow (by omega) 16
      simp only [List.length_singleton]
      omega
    · rw [List.length_append, List.length_singleton, Nat.add_le_add_iff_right, pow_succ]
      by_cases hk0 : k = 0
      · subst hk0
        have hpos := List.length_pos_iff.2 (digits_ne_nil (n / 16))
        omega
      · rw [ih (by omega)]
        omega

theorem number?_digits {cs : List Char} (h : ∀ c ∈ cs, isDigit c = true) (hne : cs ≠ []) :
    number? cs = some (value cs) := by
  have hno : ∀ c ∈ cs, c ≠ '+' ∧ c ≠ '_' := by
    intro c hc
    have hdigit := h c hc
    constructor
    · rintro rfl
      exact absurd hdigit (by decide)
    · rintro rfl
      exact absurd hdigit (by decide)
  have hfilter : cs.filter (· != '_') = cs := by
    rw [List.filter_eq_self]
    intro c hc
    simpa using (hno c hc).2
  cases cs with
  | nil => exact absurd rfl hne
  | cons c r =>
    have hplus : c ≠ '+' := (hno c List.mem_cons_self).1
    have hlow : c ≠ '_' := (hno c List.mem_cons_self).2
    have hall : (c :: r).all isDigit = true := List.all_eq_true.2 h
    simp [number?, hplus, hfilter, hall, hlow]

/-! ## Numbers of 64 bits -/

/-- a digit behind a number of 64 bits gives the number that they stand for together, or one that is too wide -/
theorem extend?_ofNat {n d : Nat} {c : Char} (hn : n < 2 ^ 64) (hd : digit? c = some d) :
    extend? (UInt64.ofNat n) c = if 16 * n + d < 2 ^ 64 then some (UInt64.ofNat (16 * n + d)) else none := by
  have hn' : (UInt64.ofNat n).toNat = n := UInt64.toNat_ofNat_of_lt' hn
  have hsum : 16 * UInt64.ofNat n + UInt64.ofNat d = UInt64.ofNat (16 * n + d) := by
    rw [UInt64.ofNat_add, UInt64.ofNat_mul]
    rfl
  simp only [extend?, hd, hn', hsum, Option.bind_eq_bind, Option.bind_some]
  rfl

/-- a number that does not fit is found out at the first digit at which it does not -/
theorem foldlM_extend? {cs : List Char} (h : ∀ c ∈ cs, isDigit c = true) :
    cs.foldlM extend? 0 = if value cs < 2 ^ 64 then some (UInt64.ofNat (value cs)) else none := by
  induction cs using List.reverseRecOn with
  | nil => rfl
  | append_singleton cs c ih =>
    obtain ⟨d, hd⟩ := Option.isSome_iff_exists.1 (h c (by simp))
    rw [List.foldlM_append, ih fun x hx => h x (List.mem_append_left _ hx), value_concat, hd, Option.getD_some]
    by_cases hfits : value cs < 2 ^ 64
    · rw [if_pos hfits]
      simp only [Option.bind_eq_bind, Option.bind_some, List.foldlM_cons, List.foldlM_nil, extend?_ofNat hfits hd]
      split_ifs <;> rfl
    · rw [if_neg hfits, if_neg (by omega)]
      rfl

theorem number64?_digits {cs : List Char} (h : ∀ c ∈ cs, isDigit c = true) (hne : cs ≠ []) :
    number64? cs = if value cs < 2 ^ 64 then some (UInt64.ofNat (value cs)) else none := by
  rw [← foldlM_extend? h]
  unfold number64?
  split
  · exact absurd (h '+' List.mem_cons_self) (by decide)
  · simp only [List.isEmpty_iff, hne, if_false]

/-- without a leading zero the number of digits says how large a number is -/
theorem length_le_iff {cs : List Char} {k : Nat} (h : ∀ c ∈ cs, isDigit c = true) (hne : cs ≠ [])
    (hhead : 1 < cs.length → cs.head? ≠ some '0') (hk : 0 < k) : cs.length ≤ k ↔ value cs < 16 ^ k := by
  rw [← length_digits_le_iff hk, digits_value h hne hhead, List.length_map]

/-- leading zeros do not count -/
theorem value_dropWhile (cs : List Char) : value (cs.dropWhile (· == '0')) = value cs := by
  induction cs with
  | nil => rfl
  | cons c cs ih =>
    by_cases hc : c = '0'
    · subst hc
      rw [List.dropWhile_cons_of_pos rfl, ih]
      rfl
    · rw [List.dropWhile_cons_of_neg (by simpa using hc)]

end ChainBridge.Text.Hex
