/-
A text is read back from its bytes, and it is cut between characters.

The first byte of a character says how many bytes follow (`lead_one` to `lead_four`); those carry six bits each. So
every character is read back from its bytes, whatever follows (`decode_encodeChar`), and so is every text. Only the
first byte of a character is none that continues one, so a boundary is where a first part of the characters ends
(`isBoundary_encode`) and a text that is too long loses no more than it must (`cut_of_lt_size`).
-/
import Mathlib
import ChainBridge.Text.Utf8

namespace ChainBridge.Text.Utf8

/-! ## First bytes -/

theorem lead_one {b : UInt8} (h : b.toNat ≤ 0x7F) : lead b = .one := by
  rw [lead, if_pos (UInt8.le_iff_toNat_le.2 h)]

theorem lead_two {b : UInt8} (hlow : 0xC2 ≤ b.toNat) (hhigh : b.toNat ≤ 0xDF) : lead b = .two := by
  simp only [lead, UInt8.le_iff_toNat_le, Bool.and_eq_true, decide_eq_true_eq, UInt8.reduceToNat]
  rw [if_neg (by omega), if_pos ⟨hlow, hhigh⟩]

theorem lead_three {b : UInt8} (hlow : 0xE0 ≤ b.toNat) (hhigh : b.toNat ≤ 0xEF) :
    lead b = .three (if b.toNat = 0xE0 then 0xA0 else 0x80) (if b.toNat = 0xED then 0x9F else 0xBF) := by
  simp only [lead, UInt8.le_iff_toNat_le, Bool.and_eq_true, decide_eq_true_eq, UInt8.reduceToNat, beq_iff_eq,
    ← UInt8.toNat_inj]
  grind

theorem lead_four {b : UInt8} (hlow : 0xF0 ≤ b.toNat) (hhigh : b.toNat ≤ 0xF4) :
    lead b = .four (if b.toNat = 0xF0 then 0x90 else 0x80) (if b.toNat = 0xF4 then 0x8F else 0xBF) := by
  simp only [lead, UInt8.le_iff_toNat_le, Bool.and_eq_true, decide_eq_true_eq, UInt8.reduceToNat, beq_iff_eq,
    ← UInt8.toNat_inj]
  grind

theorem isTail_iff {b : UInt8} : isTail b = true ↔ 0x80 ≤ b.toNat ∧ b.toNat ≤ 0xBF := by
  simp [isTail, UInt8.le_iff_toNat_le]

theorem toNat_byte {n : Nat} (h : n < 256) : (UInt8.ofNat n).toNat = n := by
  simp; omega

theorem isTail_low (n : Nat) : isTail (UInt8.ofNat (n % 64 + 0x80)) = true := by
  rw [isTail_iff, toNat_byte (by omega)]
  omega

theorem low_tail (n : Nat) : low (UInt8.ofNat (n % 64 + 0x80)) = n % 64 := by
  rw [low, toNat_byte (by omega)]
  omega

theorem decode_one {a : UInt8} (h : lead a = .one) (rest : List UInt8) :
    decode (a :: rest) = Char.ofNat a.toNat :: decode rest := by
  rw [decode.eq_def]
  simp only [h]

theorem decode_two {a b : UInt8} (h : lead a = .two) (hb : isTail b = true) (rest : List UInt8) :
    decode (a :: b :: rest) = Char.ofNat (a.toNat % 32 * 64 + low b) :: decode rest := by
  rw [decode.eq_def]
  simp only [h, hb, if_true]

theorem decode_three {a b c lo hi : UInt8} (h : lead a = .three lo hi) (hlow : lo ≤ b) (hhigh : b ≤ hi)
    (hc : isTail c = true) (rest : List UInt8) :
    decode (a :: b :: c :: rest) = Char.ofNat ((a.toNat % 16 * 64 + low b) * 64 + low c) :: decode rest := by
  rw [decode.eq_def]
  simp [h, hlow, hhigh, hc]

theorem decode_four {a b c d lo hi : UInt8} (h : lead a = .four lo hi) (hlow : lo ≤ b) (hhigh : b ≤ hi)
    (hc : isTail c = true) (hd : isTail d = true) (rest : List UInt8) :
    decode (a :: b :: c :: d :: rest) =
      Char.ofNat (((a.toNat % 8 * 64 + low b) * 64 + low c) * 64 + low d) :: decode rest := by
  rw [decode.eq_def]
  simp [h, hlow, hhigh, hc, hd]

/-- a character is read back from its bytes, whatever follows -/
theorem decode_encodeChar (c : Char) (rest : List UInt8) :
    decode (String.utf8EncodeChar c ++ rest) = c :: decode rest := by
  have hvalid : c.toNat < 0xD800 ∨ 0xDFFF < c.toNat ∧ c.toNat < 0x110000 := c.valid
  have hchar : Char.ofNat c.toNat = c := Char.ofNat_toNat c
  unfold String.utf8EncodeChar
  simp only [show c.val.toNat = c.toNat from rfl]
  generalize c.toNat = v at *
  split_ifs with h1 h2 h3
  · have ha : (UInt8.ofNat v).toNat = v := toNat_byte (by omega)
    refine (decode_one (lead_one (by omega)) rest).trans ?_
    rw [ha, hchar]
  · have ha : (UInt8.ofNat (v / 64 % 32 + 0xC0)).toNat = v / 64 + 0xC0 := by
      rw [toNat_byte (by omega)]
      omega
    refine (decode_two (lead_two (by omega) (by omega)) (isTail_low v) rest).trans ?_
    rw [ha, low_tail, show (v / 64 + 0xC0) % 32 * 64 + v % 64 = v by omega, hchar]
  · have ha : (UInt8.ofNat (v / 4096 % 16 + 0xE0)).toNat = v / 4096 + 0xE0 := by
      rw [toNat_byte (by omega)]
      omega
    have hb : (UInt8.ofNat (v / 64 % 64 + 0x80)).toNat = v / 64 % 64 + 0x80 := toNat_byte (by omega)
    refine (decode_three (lead_three (by omega) (by omega)) ?_ ?_ (isTail_low v) rest).trans ?_
    · rw [UInt8.le_iff_toNat_le, hb]
      split_ifs
      all_goals
        simp only [UInt8.reduceToNat]
        omega
    · rw [UInt8.le_iff_toNat_le, hb]
      split_ifs
      all_goals
        simp only [UInt8.reduceToNat]
        omega
    · rw [ha, low_tail, low_tail, show ((v / 4096 + 0xE0) % 16 * 64 + v / 64 % 64) * 64 + v % 64 = v by omega, hchar]
  · have ha : (UInt8.ofNat (v / 262144 % 8 + 0xF0)).toNat = v / 262144 + 0xF0 := by
      rw [toNat_byte (by omega)]
      omega
    have hb : (UInt8.ofNat (v / 4096 % 64 + 0x80)).toNat = v / 4096 % 64 + 0x80 := toNat_byte (by omega)
    refine (decode_four (lead_four (by omega) (by omega)) ?_ ?_ (isTail_low _) (isTail_low v) rest).trans ?_
    · rw [UInt8.le_iff_toNat_le, hb]
      split_ifs
      all_goals
        simp only [UInt8.reduceToNat]
        omega
    · rw [UInt8.le_iff_toNat_le, hb]
      split_ifs
      all_goals
        simp only [UInt8.reduceToNat]
        omega
    · rw [ha, low_tail, low_tail, low_tail,
        show (((v / 262144 + 0xF0) % 8 * 64 + v / 4096 % 64) * 64 + v / 64 % 64) * 64 + v % 64 = v by omega, hchar]

theorem encode_cons (c : Char) (cs : List Char) : encode (c :: cs) = String.utf8EncodeChar c ++ encode cs := rfl

theorem encode_append (cs ds : List Char) : encode (cs ++ ds) = encode cs ++ encode ds := List.flatMap_append

/-- a text is read back from its bytes -/
theorem decode_encode (cs : List Char) : decode (encode cs) = cs := by
  induction cs with
  | nil => rw [encode, List.flatMap_nil, decode]
  | cons c cs ih => rw [encode_cons, decode_encodeChar, ih]

theorem read?_encode (cs : List Char) : read? (encode cs) = some cs := by
  simp only [read?, decode_encode, if_true]

/-! ## Octets -/

theorem octet_byte {n : Nat} (h : n < 256) : octet (UInt8.ofNat n) = Char.ofNat n := by
  rw [octet, toNat_byte h]

theorem encodeChar_ascii {c : Char} (h : c.toNat < 0x80) : String.utf8EncodeChar c = [UInt8.ofNat c.toNat] := by
  have hle : c.val.toNat ≤ 0x7F := Nat.le_of_lt_succ h
  simp only [String.utf8EncodeChar, hle, if_true]
  rfl

theorem octets_append (cs ds : List Char) : octets (cs ++ ds) = octets cs ++ octets ds := by
  rw [octets, encode_append, List.map_append]
  rfl

theorem octets_cons (c : Char) (cs : List Char) : octets (c :: cs) = octets [c] ++ octets cs := octets_append [c] cs

/-- characters of one byte are their own octets -/
theorem octets_cons_ascii {c : Char} (h : c.toNat < 0x80) (cs : List Char) : octets (c :: cs) = c :: octets cs := by
  rw [octets_cons]
  simp only [octets, encode, List.flatMap_cons, List.flatMap_nil, List.append_nil, encodeChar_ascii h, List.map_cons,
    List.map_nil]
  rw [octet_byte (by omega), Char.ofNat_toNat]
  rfl

theorem octets_ascii {cs : List Char} (h : ∀ c ∈ cs, c.toNat < 0x80) : octets cs = cs := by
  induction cs with
  | nil => rfl
  | cons c cs ih =>
    rw [octets_cons_ascii (h c List.mem_cons_self), ih fun d hd => h d (List.mem_cons_of_mem c hd)]

/-- a byte is read back from its octet -/
theorem byte_octet (b : UInt8) : UInt8.ofNat (octet b).toNat = b := by
  have hb : b.toNat < 256 := b.toNat_lt
  rw [octet, Char.toNat_ofNat, if_pos (Or.inl (by omega)), UInt8.ofNat_toNat]

/-- bytes below 0x80 are characters of their own -/
theorem decode_ascii {bytes : List UInt8} (h : ∀ b ∈ bytes, b.toNat < 0x80) : decode bytes = bytes.map octet := by
  induction bytes with
  | nil => rw [decode, List.map_nil]
  | cons b bytes ih =>
    have hb := h b List.mem_cons_self
    rw [decode_one (lead_one (by omega)), ih fun x hx => h x (List.mem_cons_of_mem b hx)]
    rfl

/-- a text whose octets are all below 0x80 is its own octets, since its bytes are read back one by one -/
theorem octets_eq_self {cs : List Char} (h : ∀ c ∈ octets cs, c.toNat < 0x80) : octets cs = cs := by
  have hbytes : ∀ b ∈ encode cs, b.toNat < 0x80 := by
    intro b hb
    have hb256 : b.toNat < 256 := b.toNat_lt
    have hoctet := h (octet b) (List.mem_map_of_mem hb)
    rwa [octet, Char.toNat_ofNat, if_pos (Or.inl (by omega))] at hoctet
  rw [octets, ← decode_ascii hbytes, decode_encode]

/-! ## Cutting -/

theorem isTail_eq_false {b : UInt8} (h : b.toNat < 0x80 ∨ 0xBF < b.toNat) : isTail b = false := by
  rw [← Bool.not_eq_true, isTail_iff]
  omega

/-- only the first byte of a character is none that continues one -/
theorem encodeChar_shape (c : Char) :
    ∃ a tail, String.utf8EncodeChar c = a :: tail ∧ isTail a = false ∧ ∀ b ∈ tail, isTail b = true := by
  have hvalid : c.toNat < 0xD800 ∨ 0xDFFF < c.toNat ∧ c.toNat < 0x110000 := c.valid
  unfold String.utf8EncodeChar
  simp only [show c.val.toNat = c.toNat from rfl]
  generalize c.toNat = v at *
  split_ifs with h1 h2 h3
  · refine ⟨_, [], rfl, isTail_eq_false (Or.inl ?_), by simp⟩
    rw [toNat_byte (by omega)]
    omega
  · refine ⟨_, _, rfl, isTail_eq_false (Or.inr ?_), ?_⟩
    · rw [toNat_byte (by omega)]
      omega
    · simp only [List.forall_mem_cons, isTail_low, true_and]
      simp
  · refine ⟨_, _, rfl, isTail_eq_false (Or.inr ?_), ?_⟩
    · rw [toNat_byte (by omega)]
      omega
    · simp only [List.forall_mem_cons, isTail_low, true_and]
      simp
  · refine ⟨_, _, rfl, isTail_eq_false (Or.inr ?_), ?_⟩
    · rw [toNat_byte (by omega)]
      omega
    · simp only [List.forall_mem_cons, isTail_low, true_and]
      simp

theorem size_append (cs ds : List Char) : size (cs ++ ds) = size cs + size ds := by
  rw [← length_encode, ← length_encode, ← length_encode, encode_append, List.length_append]

theorem size_singleton_pos (c : Char) : 0 < size [c] := c.utf8Size_pos

/-- boundaries behind a first part are those of the rest -/
theorem isBoundary_append (a b : List UInt8) (i : Nat) : isBoundary (a ++ b) (a.length + i) = isBoundary b i := by
  unfold isBoundary
  rw [List.getElem?_append_right (Nat.le_add_right _ _), Nat.add_sub_cancel_left, List.length_append]
  cases b[i]? with
  | none => simp
  | some x => rfl

/-- boundaries are where a first part of the characters ends -/
theorem isBoundary_encode {cs : List Char} {i : Nat} :
    isBoundary (encode cs) i = true ↔ ∃ kept rest, cs = kept ++ rest ∧ size kept = i := by
  induction cs generalizing i with
  | nil =>
    have hnil : isBoundary (encode []) i = (i == 0) := rfl
    rw [hnil, beq_iff_eq]
    constructor
    · rintro rfl
      exact ⟨[], [], rfl, rfl⟩
    · rintro ⟨kept, rest, heq, rfl⟩
      rw [(List.append_eq_nil_iff.1 heq.symm).1]
      rfl
  | cons c cs ih =>
    obtain ⟨a, tail, hbytes, ha, htail⟩ := encodeChar_shape c
    have hsize : (String.utf8EncodeChar c).length = size [c] := by
      rw [← length_encode, encode, List.flatMap_singleton]
    rw [encode_cons]
    by_cases hlong : size [c] ≤ i
    · obtain ⟨j, rfl⟩ := Nat.exists_eq_add_of_le hlong
      rw [← hsize, isBoundary_append, ih]
      constructor
      · rintro ⟨kept, rest, rfl, rfl⟩
        refine ⟨c :: kept, rest, rfl, ?_⟩
        rw [hsize]
        exact size_append [c] kept
      · rintro ⟨kept, rest, heq, hkept⟩
        have hpos := size_singleton_pos c
        cases kept with
        | nil =>
          rw [size] at hkept
          omega
        | cons x kept =>
          obtain ⟨rfl, rfl⟩ := List.cons.inj heq
          refine ⟨kept, rest, rfl, ?_⟩
          have happend : size (c :: kept) = size [c] + size kept := size_append [c] kept
          omega
    · have hat : isBoundary (String.utf8EncodeChar c ++ encode cs) i = decide (i = 0) := by
        rw [isBoundary, List.getElem?_append_left (by omega), hbytes]
        cases i with
        | zero => simp [ha]
        | succ j =>
          have hj : j < tail.length := by
            rw [hbytes, List.length_cons] at hsize
            omega
          rw [List.getElem?_cons_succ, List.getElem?_eq_getElem hj]
          simp [htail _ (List.getElem_mem hj)]
      rw [hat, decide_eq_true_iff]
      constructor
      · rintro rfl
        exact ⟨[], c :: cs, rfl, rfl⟩
      · rintro ⟨kept, rest, heq, rfl⟩
        cases kept with
        | nil => rfl
        | cons x kept =>
          obtain ⟨rfl, -⟩ := List.cons.inj heq
          have happend : size (c :: kept) = size [c] + size kept := size_append [c] kept
          omega

theorem boundary_le (bytes : List UInt8) (n : Nat) : boundary bytes n ≤ n := by
  induction n with
  | zero => exact Nat.le_refl 0
  | succ n ih =>
    rw [boundary]
    split_ifs
    · exact Nat.le_refl _
    · omega

theorem isBoundary_boundary {bytes : List UInt8} (h : isBoundary bytes 0 = true) (n : Nat) :
    isBoundary bytes (boundary bytes n) = true := by
  induction n with
  | zero => exact h
  | succ n ih =>
    rw [boundary]
    split_ifs with hn
    · exact hn
    · exact ih

/-- no boundary lies between -/
theorem le_boundary {bytes : List UInt8} {i n : Nat} (hi : isBoundary bytes i = true) (hle : i ≤ n) :
    i ≤ boundary bytes n := by
  induction n with
  | zero => exact hle
  | succ n ih =>
    rw [boundary]
    split_ifs with hn
    · exact hle
    · refine ih (Nat.lt_succ_iff.1 (Nat.lt_of_le_of_ne hle ?_))
      rintro rfl
      exact hn hi

/-- a text that is too long is cut before the first character that does not fit -/
theorem cut_of_lt_size {limit : Nat} {cs : List Char} (h : limit < size cs) :
    ∃ c rest, cs = cut limit cs ++ c :: rest ∧ size (cut limit cs) ≤ limit ∧ limit < size (cut limit cs ++ [c]) := by
  have hstart : isBoundary (encode cs) 0 = true := isBoundary_encode.2 ⟨[], cs, rfl, rfl⟩
  obtain ⟨kept, rest, hsplit, hsize⟩ := isBoundary_encode.1 (isBoundary_boundary hstart limit)
  have hle : size kept ≤ limit := hsize ▸ boundary_le _ limit
  have hcut : cut limit cs = kept := by
    have htake : (encode cs).take (size kept) = encode kept := by
      rw [hsplit, encode_append, ← length_encode, List.take_left]
    rw [cut, if_neg (by rw [length_encode]; omega), ← hsize, htake, decode_encode]
  cases rest with
  | nil =>
    rw [List.append_nil] at hsplit
    rw [hsplit] at h
    omega
  | cons c rest =>
    refine ⟨c, rest, by rw [hcut, hsplit], by rw [hcut]; exact hle, ?_⟩
    rw [hcut]
    by_contra hfits
    have hnext : isBoundary (encode cs) (size (kept ++ [c])) = true :=
      isBoundary_encode.2 ⟨kept ++ [c], rest, by rw [hsplit, List.append_assoc]; rfl, rfl⟩
    have hbound := le_boundary hnext (Nat.not_lt.1 hfits)
    have hpos := size_singleton_pos c
    rw [size_append, ← hsize] at hbound
    omega

end ChainBridge.Text.Utf8
