/-
Written texts and integers are read back, byte by byte.

A written text is read one byte after the other, up to its closing quote (`readText_escapes`); put together again, its
bytes mean the text that was written (`textOf_join`). The digits of an integer are read up to where they end
(`readNumeral_integer`), and mean the integer as long as it fits 64 bits (`toJson?_numeral`).
-/
import Mathlib
import ChainBridge.Json.Printer
import ChainBridge.Json.Reader
import ChainBridge.Proofs.Text.Utf8

namespace ChainBridge.Json

open Text

/-! ## Texts -/

/-- a character that a text may hold as it stands -/
def isBare (c : Char) : Bool := 0x20 ≤ c.toNat && c != '"' && c != '\\'

/-- a character that is written as a code unit -/
def isUnit (c : Char) : Bool := c.toNat < 0x20 && c ∉ ['\n', '\r', '\t', '\x08', '\x0c']

/-- the pieces that a character is read as when it has been written -/
def spelled (c : Char) : List Piece := if isUnit c then [.unit c.toNat] else (Utf8.octets [c]).map .plain

namespace Draft

theorem readText_bare {c : Char} (h : isBare c = true) (r : List Char) :
    readText (c :: r) = (readText r).map fun p => (.plain c :: p.1, p.2) := by
  simp only [isBare, Bool.and_eq_true, decide_eq_true_eq, bne_iff_ne, ne_eq] at h
  obtain ⟨⟨hlow, hquote⟩, hback⟩ := h
  rw [readText.eq_def]
  split
  · simp_all
  · simp_all
  · simp_all
  · simp_all
  · rename_i heq
    obtain ⟨rfl, rfl⟩ := List.cons.inj heq
    rw [if_neg (by simp [hback]; omega)]
    cases readText r <;> rfl

theorem readText_unit {n : Nat} (h : n < 0x100) (r : List Char) :
    readText ('\\' :: 'u' :: '0' :: '0' :: Hex.digit (n / 16) :: Hex.digit (n % 16) :: r) =
      (readText r).map fun p => (.unit n :: p.1, p.2) := by
  have h1 := Hex.digit?_digit (n / 16) (by omega)
  have h2 := Hex.digit?_digit (n % 16) (by omega)
  have h0 : Hex.digit? '0' = some 0 := rfl
  rw [readText.eq_def]
  simp only [codeUnit?, h0, h1, h2, Option.bind_eq_bind, Option.bind_some, Option.pure_def]
  rw [show ((0 * 16 + 0) * 16 + n / 16) * 16 + n % 16 = n by omega]
  cases readText r <;> rfl

theorem readText_escaped {c e : Char} (hu : c ≠ 'u') (h : escaped? c = some e) (r : List Char) :
    readText ('\\' :: c :: r) = (readText r).map fun p => (.plain e :: p.1, p.2) := by
  rw [readText.eq_def]
  split
  · simp_all
  · simp_all
  · simp_all
  · rename_i heq
    simp only [List.cons.injEq, true_and] at heq
    obtain ⟨rfl, rfl⟩ := heq
    simp only [h, Option.bind_eq_bind, Option.bind_some]
    cases readText r <;> rfl
  · rename_i hno heq
    simp only [List.cons.injEq] at heq
    obtain ⟨rfl, rfl⟩ := heq
    simp at hno


/-- characters that stand as they are are read one by one -/
theorem readText_octets {cs : List Char} (h : ∀ c ∈ cs, isBare c = true) (r : List Char) :
    readText (cs ++ r) = (readText r).map fun p => (cs.map .plain ++ p.1, p.2) := by
  induction cs with
  | nil => simp
  | cons c cs ih =>
    rw [List.cons_append, readText_bare (h c List.mem_cons_self), ih fun d hd => h d (List.mem_cons_of_mem c hd)]
    cases readText r <;> rfl

end Draft

/-- the bytes of a character above ASCII stand as they are -/
theorem isBare_octet {c : Char} (h : 0x80 ≤ c.toNat) {o : Char} (ho : o ∈ Utf8.octets [c]) : isBare o = true := by
  obtain ⟨b, hb, rfl⟩ := List.mem_map.1 ho
  have hhigh : 0x80 ≤ b.toNat := by
    have hvalid : c.toNat < 0x110000 := by
      rcases c.valid with hc | hc
      · exact Nat.lt_trans hc (by decide)
      · exact hc.2
    simp only [Utf8.encode, List.flatMap_cons, List.flatMap_nil, List.append_nil, String.utf8EncodeChar,
      show c.val.toNat = c.toNat from rfl] at hb
    generalize c.toNat = v at *
    rw [if_neg (by omega)] at hb
    split_ifs at hb
    all_goals
      simp only [List.mem_cons, List.not_mem_nil, or_false] at hb
      rcases hb with rfl | rfl | rfl | rfl
      all_goals
        rw [Utf8.toNat_byte (by omega)]
        omega
  have hb : b.toNat < 256 := b.toNat_lt
  have hnat : (Utf8.octet b).toNat = b.toNat := by
    rw [Utf8.octet, Char.toNat_ofNat, if_pos (Or.inl (by omega))]
  have hne : ∀ d : Char, d.toNat < 0x80 → Utf8.octet b ≠ d := by
    intro d hd heq
    rw [heq] at hnat
    omega
  simp only [isBare, Bool.and_eq_true, decide_eq_true_eq, bne_iff_ne, ne_eq]
  exact ⟨⟨by omega, hne _ (by decide)⟩, hne _ (by decide)⟩

namespace Draft

/-- a character is read back from its written form, as single bytes -/
theorem readText_escape (c : Char) (r : List Char) :
    readText (Utf8.octets (escape c) ++ r) = (readText r).map fun p => (spelled c ++ p.1, p.2) := by
  unfold escape
  split_ifs with h1 h2 h3 h4 h5 h6 h7 h8
  · subst h1
    exact readText_escaped (by decide) rfl r
  · subst h2
    exact readText_escaped (by decide) rfl r
  · subst h3
    exact readText_escaped (by decide) rfl r
  · subst h4
    exact readText_escaped (by decide) rfl r
  · subst h5
    exact readText_escaped (by decide) rfl r
  · subst h6
    exact readText_escaped (by decide) rfl r
  · subst h7
    exact readText_escaped (by decide) rfl r
  · have hunit : isUnit c = true := by
      simp [isUnit, h3, h4, h5, h6, h7, h8]
    have hdigit : ∀ n < 16, (Hex.digit n).toNat < 0x80 := by decide
    rw [Utf8.octets_ascii, spelled, if_pos hunit]
    · exact readText_unit (by omega) r
    · intro d hd
      simp only [List.mem_cons, List.not_mem_nil, or_false] at hd
      rcases hd with rfl | rfl | rfl | rfl | rfl | rfl
      all_goals first | decide | exact hdigit _ (by omega)
  · have hunit : isUnit c = false := by
      simp [isUnit, h8]
    rw [spelled, hunit]
    refine readText_octets ?_ r
    intro o ho
    by_cases hc : c.toNat < 0x80
    · rw [Utf8.octets_cons_ascii hc] at ho
      obtain rfl : o = c := by simpa [Utf8.octets, Utf8.encode] using ho
      simp [isBare, h1, h2]
      omega
    · exact isBare_octet (by omega) ho

/-- a text is read back up to its closing quote -/
theorem readText_escapes (cs r : List Char) :
    readText (Utf8.octets (cs.flatMap escape) ++ '"' :: r) = some (cs.flatMap spelled, r) := by
  induction cs with
  | nil => rw [List.flatMap_nil]; exact readText.eq_2 r
  | cons c cs ih =>
    rw [List.flatMap_cons, Utf8.octets_append, List.append_assoc, readText_escape, ih]
    rfl

end Draft

/-! ## What texts mean -/

theorem charsOf_plain (cs : List Char) (ps : List Piece) :
    charsOf (cs.map .plain ++ ps) = (charsOf ps).map (cs ++ ·) := by
  induction cs with
  | nil => simp
  | cons c cs ih =>
    simp only [List.map_cons, List.cons_append, charsOf, ih]
    cases charsOf ps <;> rfl

theorem charsOf_unit {n : Nat} (h : n < 0xD800) (ps : List Piece) :
    charsOf (.unit n :: ps) = (charsOf ps).map (Char.ofNat n :: ·) := by
  rw [charsOf.eq_def]
  simp only
  rw [if_neg (by omega), if_neg (by omega)]

namespace Draft

theorem piecesOf_encode (cs : List Char) : piecesOf (Utf8.encode cs) = cs.map .plain := by
  simp only [piecesOf, Utf8.read?_encode]

theorem joinFrom_unit (run : List UInt8) (n : Nat) (ps : List Piece) :
    joinFrom run (.unit n :: ps) = piecesOf run.reverse ++ .unit n :: joinFrom [] ps := by
  rw [joinFrom]
  intro c hc
  cases hc

theorem joinFrom_octets (run : List UInt8) (cs : List Char) (ps : List Piece) :
    joinFrom run ((Utf8.octets cs).map .plain ++ ps) = joinFrom ((Utf8.encode cs).reverse ++ run) ps := by
  rw [Utf8.octets]
  generalize Utf8.encode cs = bytes
  induction bytes generalizing run with
  | nil => rfl
  | cons b bytes ih =>
    simp only [List.map_cons, List.cons_append, joinFrom, Utf8.byte_octet, ih, List.reverse_cons, List.append_assoc,
      List.nil_append]

/-- the characters of a written text, when some have been read already -/
theorem charsOf_joinFrom (before cs : List Char) :
    charsOf (joinFrom (Utf8.encode before).reverse (cs.flatMap spelled)) = some (before ++ cs) := by
  induction cs generalizing before with
  | nil =>
    have hplain := charsOf_plain before []
    rw [List.append_nil] at hplain
    rw [List.flatMap_nil, joinFrom, List.reverse_reverse, piecesOf_encode, hplain]
    rfl
  | cons c cs ih =>
    rw [List.flatMap_cons, spelled]
    by_cases hunit : isUnit c = true
    · have hlow : c.toNat < 0x20 := by
        simp only [isUnit, Bool.and_eq_true, decide_eq_true_eq] at hunit
        exact hunit.1
      have hrest := ih []
      rw [if_pos hunit, List.singleton_append, joinFrom_unit, List.reverse_reverse, piecesOf_encode, charsOf_plain,
        charsOf_unit (by omega), Char.ofNat_toNat]
      rw [show joinFrom [] (cs.flatMap spelled) = joinFrom (Utf8.encode []).reverse (cs.flatMap spelled) from rfl,
        hrest]
      rfl
    · rw [if_neg hunit, joinFrom_octets, ← List.reverse_append, ← Utf8.encode_append, ih, List.append_assoc]
      rfl

end Draft

/-- a text means what has been written -/
theorem textOf_join (s : String) : textOf (Draft.join (s.toList.flatMap spelled)) = some s := by
  have hchars := Draft.charsOf_joinFrom [] s.toList
  rw [textOf, Draft.join, show ([] : List UInt8) = (Utf8.encode []).reverse from rfl, hchars]
  simp

/-! ## Integers -/

/-- whether a text goes on after a number has ended -/
def Ends (r : List Char) : Prop := ∀ c ∈ r.head?, c.isDigit = false ∧ c ≠ '.' ∧ c ≠ 'e' ∧ c ≠ 'E'

theorem ends_nil : Ends [] := by
  intro c hc
  simp at hc

theorem ends_cons {c : Char} (h : c.isDigit = false ∧ c ≠ '.' ∧ c ≠ 'e' ∧ c ≠ 'E') (r : List Char) : Ends (c :: r) := by
  intro d hd
  obtain rfl : c = d := Option.some.inj hd
  exact h

/-- the numeral of an integer -/
def numeral (i : Int) : Numeral := ⟨decide (i < 0), Decimal.naturalDigits i.natAbs, none, none⟩

theorem naturalDigits_digit {n : Nat} {c : Char} (h : c ∈ Decimal.naturalDigits n) : c.isDigit = true :=
  Nat.isDigit_of_mem_toDigits (by decide) (by decide) h

theorem naturalDigits_ne_nil (n : Nat) : Decimal.naturalDigits n ≠ [] := Nat.toDigits_ne_nil

/-- only zero is written with a zero in front -/
theorem naturalDigits_head {n : Nat} (h : (Decimal.naturalDigits n).head? = some '0') : n = 0 := by
  induction n using Nat.strongRecOn with
  | ind n ih =>
    unfold Decimal.naturalDigits at h ih
    rw [Nat.toDigits_eq_if (by decide)] at h
    split_ifs at h with hn
    · simpa using h
    · have hhead : (Nat.toDigits 10 (n / 10)).head? = some '0' := by
        rwa [List.head?_append_of_ne_nil _ Nat.toDigits_ne_nil] at h
      have hzero := ih (n / 10) (by omega) hhead
      omega

namespace Draft

theorem spanDigits_append {ds r : List Char} (hd : ∀ c ∈ ds, c.isDigit = true) (hr : Ends r) :
    spanDigits (ds ++ r) = (ds, r) := by
  have hstop : r.takeWhile Char.isDigit = [] ∧ r.dropWhile Char.isDigit = r := by
    cases r with
    | nil => exact ⟨rfl, rfl⟩
    | cons c r => simp [(hr c rfl).1]
  simp only [spanDigits, List.takeWhile_append_of_pos hd, List.dropWhile_append_of_pos hd, hstop.1, hstop.2,
    List.append_nil]

theorem readWhole_digits (n : Nat) {r : List Char} (hr : Ends r) :
    readWhole (Decimal.naturalDigits n ++ r) = some (Decimal.naturalDigits n, r) := by
  have hspan := spanDigits_append (fun _ h => naturalDigits_digit (n := n) h) hr
  have hne := naturalDigits_ne_nil n
  have hzero := naturalDigits_head (n := n)
  by_cases hn : n = 0
  · subst hn
    rfl
  · cases hds : Decimal.naturalDigits n with
    | nil => exact absurd hds hne
    | cons d ds =>
      have hd : d ≠ '0' := by
        rintro rfl
        exact hn (hzero (by rw [hds]; rfl))
      rw [hds] at hspan
      rw [List.cons_append, readWhole.eq_def]
      split
      · rename_i heq
        exact absurd (List.cons.inj heq).1 hd
      · rw [← List.cons_append, hspan]

theorem readNumeral_integer (i : Int) {r : List Char} (hr : Ends r) :
    readNumeral (integerText i ++ r) = some (numeral i, r) := by
  have hfraction : readFraction r = some (none, r) := by
    cases r with
    | nil => rfl
    | cons c r =>
      rw [readFraction.eq_def]
      split
      · rename_i heq
        exact absurd (List.cons.inj heq).1 (hr c rfl).2.1
      · rfl
  have hexponent : readExponent r = some (none, r) := by
    cases r with
    | nil => rfl
    | cons c r =>
      rw [readExponent.eq_def]
      split
      · rename_i heq
        exact absurd (List.cons.inj heq).1 (hr c rfl).2.2.1
      · rename_i heq
        exact absurd (List.cons.inj heq).1 (hr c rfl).2.2.2
      · rfl
  have hwhole := readWhole_digits i.natAbs hr
  unfold integerText numeral
  split_ifs with hneg
  · simp [readNumeral, hwhole, hfraction, hexponent, hneg]
  · have hminus : ∀ r', Decimal.naturalDigits i.natAbs ++ r ≠ '-' :: r' := by
      intro r' heq
      cases hds : Decimal.naturalDigits i.natAbs with
      | nil => exact naturalDigits_ne_nil _ hds
      | cons d ds =>
        rw [hds, List.cons_append] at heq
        have hdigit := naturalDigits_digit (n := i.natAbs) (c := d) (by rw [hds]; exact List.mem_cons_self)
        rw [(List.cons.inj heq).1] at hdigit
        exact absurd hdigit (by decide)
    rw [readNumeral]
    · simp [hwhole, hfraction, hexponent, hneg]
    · exact hminus

end Draft

namespace Numeral

/-- digits are gathered as long as what they stand for fits -/
theorem gather_digits {n : Nat} {ds : List Char} (h : Nat.ofDigitChars 10 ds n < 0x10000000000000000) :
    gather n ds = (Nat.ofDigitChars 10 ds n, []) := by
  induction ds generalizing n with
  | nil => rfl
  | cons d ds ih =>
    rw [Nat.ofDigitChars_cons] at h ⊢
    have hstep : 10 * n + digitValue d = 10 * n + (d.toNat - '0'.toNat) := rfl
    have hle : 10 * n + digitValue d ≤ Nat.ofDigitChars 10 ds (10 * n + (d.toNat - '0'.toNat)) := by
      rw [Nat.ofDigitChars_eq_ofDigitChars_zero, hstep]
      have hpos : 1 ≤ 10 ^ ds.length := Nat.one_le_pow _ _ (by decide)
      nlinarith
    rw [gather, if_pos (by omega), hstep, ih h]

/-- an integer of 64 bits means what has been written -/
theorem toJson?_numeral {i : Int} (hlow : -0x8000000000000000 ≤ i) (hhigh : i < 0x10000000000000000) :
    (numeral i).toJson? = some (.integer i) := by
  have hvalue : Nat.ofDigitChars 10 (Decimal.naturalDigits i.natAbs) 0 = i.natAbs := Nat.ofDigitChars_ten_toDigits
  have hgather : gather 0 (Decimal.naturalDigits i.natAbs) = (i.natAbs, []) := by
    rw [gather_digits (by omega), hvalue]
  simp only [toJson?, numeral, hgather]
  by_cases hneg : i < 0
  · have habs : -(i.natAbs : Int) = i := by omega
    simp only [hneg, decide_true, Bool.not_true, Bool.false_eq_true, if_false, habs]
    rw [if_neg (by omega)]
  · have habs : (i.natAbs : Int) = i := by omega
    simp only [hneg, decide_false, Bool.not_false, if_true, habs]

end Numeral

end ChainBridge.Json
