/-
Written forms of JSON values: compact, on one line, and pretty, with two blanks per level.

Only the quotation mark, the backslash and the controls are escaped; everything else stands as it is. A floating-point
number is written with the fewest digits that read back, in positional notation when its point falls between 5 places
before the first digit and 16 places behind it, and then always shows a point.
-/
import ChainBridge.Json.Basic
import ChainBridge.Decimal.Shortest
import ChainBridge.Text.Hex

namespace ChainBridge.Json

open Text

/-! ## Texts and numbers -/

def escape (c : Char) : List Char :=
  if c = '"' then ['\\', '"']
  else if c = '\\' then ['\\', '\\']
  else if c = '\n' then ['\\', 'n']
  else if c = '\r' then ['\\', 'r']
  else if c = '\t' then ['\\', 't']
  else if c = '\x08' then ['\\', 'b']
  else if c = '\x0c' then ['\\', 'f']
  else if c.toNat < 0x20 then ['\\', 'u', '0', '0', Hex.digit (c.toNat / 16), Hex.digit (c.toNat % 16)]
  else [c]

def quote (s : String) : List Char := '"' :: s.toList.flatMap escape ++ ['"']

/-- digits of a floating-point number, by the place of its point -/
def floatDigits (d : Decimal.Scaled) : List Char :=
  if -5 < d.point ∧ d.point ≤ 16 then Decimal.positional ['.', '0'] d else Decimal.scientific d

def floatText (bits : UInt64) : List Char :=
  match Decimal.Double.ofBits bits with
  | .nan | .infinite _ => ['n', 'u', 'l', 'l']
  | .zero negative => (if negative then ['-'] else []) ++ ['0', '.', '0']
  | .finite negative m q narrow =>
    (if negative then ['-'] else []) ++ floatDigits (Decimal.shortest m q narrow)

def integerText (i : Int) : List Char :=
  if i < 0 then '-' :: Decimal.naturalDigits i.natAbs else Decimal.naturalDigits i.natAbs

/-! ## Compact form -/

mutual

def compactChars : Json → List Char
  | .null => ['n', 'u', 'l', 'l']
  | .bool true => ['t', 'r', 'u', 'e']
  | .bool false => ['f', 'a', 'l', 's', 'e']
  | .integer i => integerText i
  | .float bits => floatText bits
  | .text s => quote s
  | .list [] => ['[', ']']
  | .list (v :: vs) => '[' :: compactChars v ++ compactItems vs ++ [']']
  | .object [] => ['\x7b', '\x7d']
  | .object ((n, v) :: ms) => '\x7b' :: quote n ++ ':' :: compactChars v ++ compactMembers ms ++ ['\x7d']

/-- the items behind the first -/
def compactItems : List Json → List Char
  | [] => []
  | v :: vs => ',' :: compactChars v ++ compactItems vs

/-- the members behind the first -/
def compactMembers : List (String × Json) → List Char
  | [] => []
  | (n, v) :: ms => ',' :: quote n ++ ':' :: compactChars v ++ compactMembers ms

end

def compact (v : Json) : String := String.ofList v.compactChars

/-! ## Pretty form -/

/-- a new line at a depth -/
def newLine (depth : Nat) : List Char := '\n' :: List.replicate (2 * depth) ' '

mutual

def prettyChars (depth : Nat) : Json → List Char
  | .list [] => ['[', ']']
  | .list (v :: vs) =>
    '[' :: newLine (depth + 1) ++ prettyChars (depth + 1) v ++ prettyItems (depth + 1) vs ++ newLine depth ++ [']']
  | .object [] => ['\x7b', '\x7d']
  | .object ((n, v) :: ms) =>
    '\x7b' :: newLine (depth + 1) ++ quote n ++ ':' :: ' ' :: prettyChars (depth + 1) v ++
      prettyMembers (depth + 1) ms ++ newLine depth ++ ['\x7d']
  | v => compactChars v

def prettyItems (depth : Nat) : List Json → List Char
  | [] => []
  | v :: vs => ',' :: newLine depth ++ prettyChars depth v ++ prettyItems depth vs

def prettyMembers (depth : Nat) : List (String × Json) → List Char
  | [] => []
  | (n, v) :: ms => ',' :: newLine depth ++ quote n ++ ':' :: ' ' :: prettyChars depth v ++ prettyMembers depth ms

end

def pretty (v : Json) : String := String.ofList (prettyChars 0 v)

end ChainBridge.Json
