/-
Twenty-byte account and contract addresses.

The text of an address is a marker and forty digits of either case; it is written in lower case. Addresses are equal
and ordered byte by byte, whatever case they were read in.
-/
import ChainBridge.Text.Utf8
import ChainBridge.Text.Quoted

namespace ChainBridge

structure Address where
  bytes : List UInt8
  size : bytes.length = 20
deriving DecidableEq

/-- why a text is no address -/
inductive AddressFault where
  | missingMarker
  | invalidHex (fault : Text.Hex.Fault)
  | invalidLength (bytes : Nat)
deriving DecidableEq, Repr

namespace AddressFault

/-- what is wrong with a byte string that does not read -/
def hexMessage : Text.Hex.Fault → String
  | .oddLength => "Odd number of digits"
  | .badDigit c position => "Invalid character " ++ Text.Quoted.char c ++ " at position " ++ toString position

def message : AddressFault → String
  | .missingMarker => "missing 0x prefix"
  | .invalidHex fault => "invalid hex: " ++ hexMessage fault
  | .invalidLength bytes => "invalid length: expected 20 bytes, got " ++ toString bytes

end AddressFault

namespace Address

open Text

def zero : Address := ⟨List.replicate 20 0, by simp⟩

instance : Inhabited Address := ⟨zero⟩

/-- reads an address; positions and lengths count bytes of the text -/
def parse (input : String) : Except AddressFault Address :=
  match Hex.unmark? input.toList with
  | none => .error .missingMarker
  | some ds =>
    match Hex.decode (Utf8.octets ds) with
    | .error fault => .error (.invalidHex fault)
    | .ok bytes => if h : bytes.length = 20 then .ok ⟨bytes, h⟩ else .error (.invalidLength bytes.length)

/-- the digits of an address, without the marker -/
def digits (a : Address) : List Char := Hex.encode a.bytes

/-- writes an address -/
def display (a : Address) : String := String.ofList ('0' :: 'x' :: a.digits)

instance : Repr Address := ⟨fun a _ => a.display⟩

/-- the address at the end of a 32-byte word of zeros -/
def toWord (a : Address) : List UInt8 := List.replicate 12 0 ++ a.bytes

/-- compares byte strings from the first byte that differs -/
def compareBytes : List UInt8 → List UInt8 → Ordering
  | [], [] => .eq
  | [], _ :: _ => .lt
  | _ :: _, [] => .gt
  | a :: as, b :: bs => if a < b then .lt else if b < a then .gt else compareBytes as bs

instance : Ord Address := ⟨fun a b => compareBytes a.bytes b.bytes⟩

theorem length_toWord (a : Address) : a.toWord.length = 32 := by simp [toWord, a.size]

end Address

end ChainBridge
