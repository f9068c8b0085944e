/-
Hexadecimal text: one digit, the base-16 value of a run of digits, the shortest digits of a number, and byte strings
written two digits to the byte.

Digits are read in either case and written in lower case. `decode` reads a byte string and names what is wrong with
one that does not read: an odd number of digits is found before any digit is looked at, and of several characters
that are no digits the first one is named, with its position.
-/

namespace ChainBridge.Text.Hex

/-! ## One digit -/

/-- the value of a digit of either case -/
def digit? (c : Char) : Option Nat :=
  if '0' ≤ c ∧ c ≤ '9' then some (c.toNat - 48)
  else if 'a' ≤ c ∧ c ≤ 'f' then some (c.toNat - 87)
  else if 'A' ≤ c ∧ c ≤ 'F' then some (c.toNat - 55)
  else none

def isDigit (c : Char) : Bool := (digit? c).isSome

/-- the lower-case digit of a value below 16 -/
def digit (n : Nat) : Char := Char.ofNat (if n < 10 then 48 + n else 87 + n)

theorem digit?_digit : ∀ n < 16, digit? (digit n) = some n := by decide

/-- what follows the marker of a hexadecimal text, 0x or 0X -/
def unmark? : List Char → Option (List Char)
  | '0' :: 'x' :: rest => some rest
  | '0' :: 'X' :: rest => some rest
  | _ => none

/-! ## Numbers -/

/-- the base-16 value of a run of digits, most significant first; a character that is no digit counts as zero -/
def value (cs : List Char) : Nat := cs.foldl (fun n c => 16 * n + (digit? c).getD 0) 0

/-- the number that a text stands for; one plus sign may stand before its digits, and underscores behind the first -/
def number? (cs : List Char) : Option Nat :=
  let unsigned := match cs with
    | '+' :: '+' :: _ => cs
    | '+' :: r => r
    | _ => cs
  let ds := unsigned.filter (· != '_')
  if unsigned.isEmpty || unsigned.head? == some '_' || !ds.all isDigit then none else some (value ds)

/-- puts a digit behind a number, if what comes of it still has 64 bits -/
def extend? (n : UInt64) (c : Char) : Option UInt64 := do
  let d ← digit? c
  if 16 * n.toNat + d < UInt64.size then some (16 * n + UInt64.ofNat d) else none

/-- the number of 64 bits that a text stands for; one plus sign may stand before its digits -/
def number64? (cs : List Char) : Option UInt64 :=
  let unsigned := match cs with
    | '+' :: r => r
    | _ => cs
  if unsigned.isEmpty then none else unsigned.foldlM extend? 0

/-- the digits of a number, most significant first, without leading zeros; zero has one digit -/
def digits (n : Nat) : List Char :=
  if n < 16 then [digit n] else digits (n / 16) ++ [digit (n % 16)]
termination_by n

theorem value_concat (cs : List Char) (c : Char) : value (cs ++ [c]) = 16 * value cs + (digit? c).getD 0 := by
  simp [value]

theorem value_digits (n : Nat) : value (digits n) = n := by
  induction n using Nat.strongRecOn with
  | ind n ih =>
    rw [digits]
    split
    · rename_i h; simp [value, digit?_digit n h]
    · rename_i h
      rw [value_concat, ih (n / 16) (by omega), digit?_digit _ (Nat.mod_lt _ (by omega))]
      simp; omega

/-! ## Byte strings -/

/-- the two digits of a byte, high half first -/
def pair (b : UInt8) : List Char := [digit (b.toNat / 16), digit (b.toNat % 16)]

def encode (bytes : List UInt8) : List Char := bytes.flatMap pair

/-- why a text is no byte string -/
inductive Fault where
  | oddLength
  | badDigit (c : Char) (position : Nat)
deriving DecidableEq, Repr

/-- reads digits two by two; `position` is where the first of them stands -/
def decodePairs (position : Nat) : List Char → Except Fault (List UInt8)
  | [] => .ok []
  | [_] => .error .oddLength
  | h :: l :: rest =>
    match digit? h, digit? l with
    | none, _ => .error (.badDigit h position)
    | some _, none => .error (.badDigit l (position + 1))
    | some x, some y => (decodePairs (position + 2) rest).map (UInt8.ofNat (16 * x + y) :: ·)

/-- reads a byte string; the number of digits is checked first -/
def decode (cs : List Char) : Except Fault (List UInt8) :=
  if cs.length % 2 = 1 then .error .oddLength else decodePairs 0 cs

theorem length_encode (bytes : List UInt8) : (encode bytes).length = 2 * bytes.length := by
  induction bytes with
  | nil => rfl
  | cons b bs ih => simp [encode, pair] at ih ⊢; omega

theorem decodePairs_encode (bytes : List UInt8) (position : Nat) : decodePairs position (encode bytes) = .ok bytes := by
  induction bytes generalizing position with
  | nil => rfl
  | cons b bs ih =>
    have hb : b.toNat < 256 := b.toNat_lt
    have h1 := digit?_digit (b.toNat / 16) (by omega)
    have h2 := digit?_digit (b.toNat % 16) (by omega)
    have h3 : 16 * (b.toNat / 16) + b.toNat % 16 = b.toNat := by omega
    show decodePairs position (digit (b.toNat / 16) :: digit (b.toNat % 16) :: encode bs) = _
    simp [decodePairs, h1, h2, h3, ih, Except.map]

/-- What is written reads back. -/
theorem decode_encode (bytes : List UInt8) : decode (encode bytes) = .ok bytes := by
  simp [decode, length_encode, decodePairs_encode]

end ChainBridge.Text.Hex
