/-
Hex quantities, the way a node writes numbers, and the words that contract calls return.

A quantity is a marker (0x or 0X) and at least one digit, with no leading zero except in zero itself. Amounts have up
to 256 bits and counts up to 64. A call result is a different shape: a byte string of whole 32-byte words, of which
the first is the answer.

Faults are found in a fixed order: the marker, then that there are digits, then leading zeros, then the digits
themselves, then the width. Of a call result: the marker, then that there are digits, then the digits and their
parity, then the number of bytes.
-/
import ChainBridge.Text.Hex
import ChainBridge.Text.Utf8

namespace ChainBridge

/-- why a text is no quantity or no call result -/
inductive QuantityFault where
  | missingMarker (input : String)
  | empty
  | leadingZero (input : String)
  | invalidDigit (input : String)
  | overflow (bits : Nat) (input : String)
  | wordLength (bytes : Nat)
deriving DecidableEq, Repr

def QuantityFault.message : QuantityFault → String
  | .missingMarker input => "missing 0x prefix: " ++ input
  | .empty => "empty hex quantity"
  | .leadingZero input => "hex quantity has leading zero digits: " ++ input
  | .invalidDigit input => "invalid hex digit in " ++ input
  | .overflow bits input => "hex quantity exceeds " ++ toString bits ++ " bits: " ++ input
  | .wordLength bytes => "call result is " ++ toString bytes ++ " bytes, not a whole number of 32-byte words"

namespace Quantity

open Text

/-! ## Quantities -/

/-- the digits of a well-formed quantity -/
def digits (input : String) : Except QuantityFault (List Char) :=
  match Hex.unmark? input.toList with
  | none => .error (.missingMarker input)
  | some [] => .error .empty
  | some ds =>
    if 1 < ds.length ∧ ds.head? = some '0' then .error (.leadingZero input)
    else if !ds.all Hex.isDigit then .error (.invalidDigit input)
    else .ok ds

/-- reads an amount of up to 256 bits -/
def decodeAmount (input : String) : Except QuantityFault Nat := do
  let ds ← digits input
  if 64 < ds.length then .error (.overflow 256 input)
  else
    match Hex.number? ds with
    | some n => .ok n
    | none => .error (.invalidDigit input)

/-- reads a count of up to 64 bits -/
def decodeCount (input : String) : Except QuantityFault UInt64 := do
  let ds ← digits input
  if 16 < ds.length then .error (.overflow 64 input)
  else
    match Hex.number64? ds with
    | some n => .ok n
    | none => .error (.invalidDigit input)

/-- writes an amount; zero has one digit -/
def encodeAmount (n : Nat) : String := String.ofList ('0' :: 'x' :: Hex.digits n)

/-- the sixteen digits of a count, most significant first -/
def countDigits (n : UInt64) : List Char :=
  (List.range 16).reverse.map fun i => Hex.digit (n.toNat / Nat.pow 16 i % 16)

/-- writes a count: its sixteen digits less the leading zeros, of which zero keeps one -/
def encodeCount (n : UInt64) : String :=
  let ds := (countDigits n).dropWhile (· == '0')
  String.ofList ('0' :: 'x' :: if ds.isEmpty then ['0'] else ds)

/-! ## Words of call results -/

/-- the number of bytes in a word -/
def wordBytes : Nat := 32

/-- the number that bytes stand for, most significant first -/
def ofBytes (bytes : List UInt8) : Nat := bytes.foldl (fun n b => 256 * n + b.toNat) 0

/-- the bytes of a call result, which are whole words and at least one -/
def payload (input : String) : Except QuantityFault (List UInt8) :=
  match Hex.unmark? input.toList with
  | none => .error (.missingMarker input)
  | some [] => .error .empty
  | some ds =>
    match Hex.decode (Utf8.octets ds) with
    | .error _ => .error (.invalidDigit input)
    | .ok bytes => if bytes.length % wordBytes ≠ 0 then .error (.wordLength bytes.length) else .ok bytes

/-- reads the first word of a call result -/
def decodeWord (input : String) : Except QuantityFault Nat :=
  (payload input).map fun bytes => ofBytes (bytes.take wordBytes)

end Quantity

end ChainBridge
