/-
UTF-8: the bytes of a text, reading bytes that may be no text, and cutting a text to a number of bytes.

`decode` never fails: each longest run of bytes that starts a character but does not end one, and each byte that can
start none, becomes one replacement character. `cut` steps back from the wanted byte to the nearest character boundary.
-/

namespace ChainBridge.Text.Utf8

/-! ## Bytes of a text -/

def encode (cs : List Char) : List UInt8 := cs.flatMap String.utf8EncodeChar

/-- the number of bytes of a text -/
def size : List Char → Nat
  | [] => 0
  | c :: r => c.utf8Size + size r

/-- a byte, shown as the character of that number -/
def octet (b : UInt8) : Char := Char.ofNat b.toNat

/-- the bytes of a text, each shown as a character -/
def octets (cs : List Char) : List Char := (encode cs).map octet

theorem length_encode (cs : List Char) : (encode cs).length = size cs := by
  induction cs with
  | nil => rfl
  | cons c r ih => simp [encode, size] at ih ⊢; exact ih

/-! ## Reading -/

/-- stands for bytes that are no text -/
def replacement : Char := '\uFFFD'

/-- a byte that continues a character -/
def isTail (b : UInt8) : Bool := 0x80 ≤ b && b ≤ 0xBF

/-- how a character that starts with a byte goes on -/
inductive Lead where
  | one
  | two
  /-- three bytes, the second within the bounds -/
  | three (low high : UInt8)
  /-- four bytes, the second within the bounds -/
  | four (low high : UInt8)
  | never
deriving DecidableEq, Repr

def lead (b : UInt8) : Lead :=
  if b ≤ 0x7F then .one
  else if 0xC2 ≤ b && b ≤ 0xDF then .two
  else if b == 0xE0 then .three 0xA0 0xBF
  else if b == 0xED then .three 0x80 0x9F
  else if 0xE1 ≤ b && b ≤ 0xEF then .three 0x80 0xBF
  else if b == 0xF0 then .four 0x90 0xBF
  else if 0xF1 ≤ b && b ≤ 0xF3 then .four 0x80 0xBF
  else if b == 0xF4 then .four 0x80 0x8F
  else .never

/-- the low bits that a continuing byte carries -/
def low (b : UInt8) : Nat := b.toNat % 64

def decode : List UInt8 → List Char
  | [] => []
  | a :: rest =>
    match lead a with
    | .one => Char.ofNat a.toNat :: decode rest
    | .never => replacement :: decode rest
    | .two =>
      match rest with
      | b :: r => if isTail b then Char.ofNat (a.toNat % 32 * 64 + low b) :: decode r else replacement :: decode (b :: r)
      | [] => [replacement]
    | .three lo hi =>
      match rest with
      | b :: c :: r =>
        if !(lo ≤ b && b ≤ hi) then replacement :: decode (b :: c :: r)
        else if !isTail c then replacement :: decode (c :: r)
        else Char.ofNat ((a.toNat % 16 * 64 + low b) * 64 + low c) :: decode r
      | [b] => if lo ≤ b && b ≤ hi then [replacement] else replacement :: decode [b]
      | [] => [replacement]
    | .four lo hi =>
      match rest with
      | b :: c :: d :: r =>
        if !(lo ≤ b && b ≤ hi) then replacement :: decode (b :: c :: d :: r)
        else if !isTail c then replacement :: decode (c :: d :: r)
        else if !isTail d then replacement :: decode (d :: r)
        else Char.ofNat (((a.toNat % 8 * 64 + low b) * 64 + low c) * 64 + low d) :: decode r
      | [b, c] =>
        if !(lo ≤ b && b ≤ hi) then replacement :: decode [b, c]
        else if !isTail c then replacement :: decode [c]
        else [replacement]
      | [b] => if lo ≤ b && b ≤ hi then [replacement] else replacement :: decode [b]
      | [] => [replacement]
termination_by bytes => bytes.length

/-- reads bytes that are text -/
def read? (bytes : List UInt8) : Option (List Char) :=
  let text := decode bytes
  if encode text = bytes then some text else none

/-! ## Cutting -/

/-- whether a character may end before byte `i` -/
def isBoundary (bytes : List UInt8) (i : Nat) : Bool :=
  match bytes[i]? with
  | none => i == bytes.length
  | some b => !isTail b

/-- the nearest boundary at or before byte `i` -/
def boundary (bytes : List UInt8) : Nat → Nat
  | 0 => 0
  | i + 1 => if isBoundary bytes (i + 1) then i + 1 else boundary bytes i

/-- keeps at most `limit` bytes of a text, ending at a character boundary -/
def cut (limit : Nat) (cs : List Char) : List Char :=
  let bytes := encode cs
  if bytes.length ≤ limit then cs else decode (bytes.take (boundary bytes limit))

end ChainBridge.Text.Utf8
