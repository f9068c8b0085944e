/-
JSON as it is written: the grammar alone.

A document is a string of bytes. A draft holds every number as its digits and every text as its pieces, so that a part
of a document that nobody asks for is accepted on its form alone. `Json.Reader` says what a draft means, which is where
a number may be out of range, bytes may be no text, a code unit may lack its partner and a document may be nested too
deeply.
-/
import ChainBridge.Text.Hex
import ChainBridge.Text.Utf8

namespace ChainBridge.Json

/-- a number as it is written -/
structure Numeral where
  negative : Bool
  whole : List Char
  fraction : Option (List Char)
  /-- the sign of the exponent and its digits -/
  exponent : Option (Bool × List Char)
deriving DecidableEq, Repr

/-- a part of a text: a character, a UTF-16 code unit written as an escape, or bytes that are no characters -/
inductive Piece where
  | plain (c : Char)
  | unit (n : Nat)
  | stray
deriving DecidableEq, Repr

inductive Draft where
  | null
  | bool (b : Bool)
  | number (n : Numeral)
  | text (pieces : List Piece)
  | list (items : List Draft)
  | object (members : List (List Piece × Draft))
deriving Repr

namespace Draft

/-! ## Tokens -/

def isBlank (c : Char) : Bool := c == ' ' || c == '\n' || c == '\t' || c == '\r'

def skipBlank : List Char → List Char
  | [] => []
  | c :: r => if isBlank c then skipBlank r else c :: r

/-- the code unit of four digits -/
def codeUnit? (a b c d : Char) : Option Nat := do
  let a ← Text.Hex.digit? a
  let b ← Text.Hex.digit? b
  let c ← Text.Hex.digit? c
  let d ← Text.Hex.digit? d
  return ((a * 16 + b) * 16 + c) * 16 + d

/-- what a one-letter escape stands for -/
def escaped? (c : Char) : Option Char :=
  if c = '"' ∨ c = '\\' ∨ c = '/' then some c
  else if c = 'b' then some '\x08'
  else if c = 'f' then some '\x0c'
  else if c = 'n' then some '\n'
  else if c = 'r' then some '\r'
  else if c = 't' then some '\t'
  else none

/-- reads a text behind its opening quote, up to and with the closing one -/
def readText : List Char → Option (List Piece × List Char)
  | [] => none
  | '"' :: r => some ([], r)
  | '\\' :: 'u' :: a :: b :: c :: d :: r => do
    let n ← codeUnit? a b c d
    let (ps, rest) ← readText r
    return (.unit n :: ps, rest)
  | '\\' :: c :: r => do
    let e ← escaped? c
    let (ps, rest) ← readText r
    return (.plain e :: ps, rest)
  | c :: r =>
    if c.toNat < 0x20 ∨ c = '\\' then none
    else do
      let (ps, rest) ← readText r
      return (.plain c :: ps, rest)

/-- the digits at the front -/
def spanDigits (cs : List Char) : List Char × List Char := (cs.takeWhile Char.isDigit, cs.dropWhile Char.isDigit)

/-- digits before the point: one zero, or a run that starts with another digit -/
def readWhole : List Char → Option (List Char × List Char)
  | '0' :: r => some (['0'], r)
  | cs =>
    match spanDigits cs with
    | ([], _) => none
    | (ds, r) => some (ds, r)

/-- a point and at least one digit, if there is a point -/
def readFraction : List Char → Option (Option (List Char) × List Char)
  | '.' :: r =>
    match spanDigits r with
    | ([], _) => none
    | (ds, r) => some (some ds, r)
  | cs => some (none, cs)

/-- an e, a sign or none, and at least one digit, if there is an e -/
def readExponent : List Char → Option (Option (Bool × List Char) × List Char)
  | 'e' :: r => go r
  | 'E' :: r => go r
  | cs => some (none, cs)
where
  go (r : List Char) : Option (Option (Bool × List Char) × List Char) :=
    let (negative, r) := match r with
      | '+' :: r => (false, r)
      | '-' :: r => (true, r)
      | r => (false, r)
    match spanDigits r with
    | ([], _) => none
    | (ds, r) => some (some (negative, ds), r)

def readNumeral (cs : List Char) : Option (Numeral × List Char) := do
  let (negative, cs) := match cs with
    | '-' :: r => (true, r)
    | r => (false, r)
  let (whole, cs) ← readWhole cs
  let (fraction, cs) ← readFraction cs
  let (exponent, cs) ← readExponent cs
  return (⟨negative, whole, fraction, exponent⟩, cs)

/-! ## Values -/

mutual

/-- reads a value, with blanks before it; every call spends one unit of fuel -/
def readValue : Nat → List Char → Option (Draft × List Char)
  | 0, _ => none
  | fuel + 1, cs =>
    match skipBlank cs with
    | '[' :: r =>
      match skipBlank r with
      | ']' :: r => some (.list [], r)
      | r => (readItems fuel r).map fun (vs, r) => (.list vs, r)
    | '\x7b' :: r =>
      match skipBlank r with
      | '\x7d' :: r => some (.object [], r)
      | r => (readMembers fuel r).map fun (ms, r) => (.object ms, r)
    | '"' :: r => (readText r).map fun (ps, r) => (.text ps, r)
    | 'n' :: 'u' :: 'l' :: 'l' :: r => some (.null, r)
    | 't' :: 'r' :: 'u' :: 'e' :: r => some (.bool true, r)
    | 'f' :: 'a' :: 'l' :: 's' :: 'e' :: r => some (.bool false, r)
    | r => (readNumeral r).map fun (n, r) => (.number n, r)

/-- reads one item and what follows it, up to and with the closing bracket -/
def readItems : Nat → List Char → Option (List Draft × List Char)
  | 0, _ => none
  | fuel + 1, cs => do
    let (v, r) ← readValue fuel cs
    match skipBlank r with
    | ',' :: r =>
      let (vs, r) ← readItems fuel r
      return (v :: vs, r)
    | ']' :: r => return ([v], r)
    | _ => none

/-- reads one member and what follows it, up to and with the closing brace -/
def readMembers : Nat → List Char → Option (List (List Piece × Draft) × List Char)
  | 0, _ => none
  | fuel + 1, cs =>
    match skipBlank cs with
    | '"' :: r => do
      let (name, r) ← readText r
      match skipBlank r with
      | ':' :: r =>
        let (v, r) ← readValue fuel r
        match skipBlank r with
        | ',' :: r =>
          let (ms, r) ← readMembers fuel r
          return ((name, v) :: ms, r)
        | '\x7d' :: r => return ([(name, v)], r)
        | _ => none
      | _ => none
    | _ => none

end

/-- reads a whole document of single bytes; a byte costs at most two units of fuel -/
def scan? (octets : List Char) : Option Draft := do
  let (v, r) ← readValue (2 * octets.length + 2) octets
  if (skipBlank r).isEmpty then some v else none

/-! ## Bytes -/

/-- the pieces that bytes of a text stand for -/
def piecesOf (bytes : List UInt8) : List Piece :=
  match Text.Utf8.read? bytes with
  | some cs => cs.map .plain
  | none => [.stray]

/-- puts the bytes of a text together that were read one by one; `run` are those at hand, the last of them first -/
def joinFrom (run : List UInt8) : List Piece → List Piece
  | [] => piecesOf run.reverse
  | .plain c :: r => joinFrom (UInt8.ofNat c.toNat :: run) r
  | p :: r => piecesOf run.reverse ++ p :: joinFrom [] r

def join (pieces : List Piece) : List Piece := joinFrom [] pieces

mutual

/-- puts the bytes of all texts together -/
def joined : Draft → Draft
  | .text ps => .text (join ps)
  | .list items => .list (joinedItems items)
  | .object members => .object (joinedMembers members)
  | d => d

def joinedItems : List Draft → List Draft
  | [] => []
  | d :: ds => joined d :: joinedItems ds

def joinedMembers : List (List Piece × Draft) → List (List Piece × Draft)
  | [] => []
  | (ps, d) :: ms => (join ps, joined d) :: joinedMembers ms

end

/-- reads a document from its bytes -/
def ofBytes? (bytes : List UInt8) : Option Draft :=
  (scan? (bytes.map Text.Utf8.octet)).map joined

/-- reads a document from its text -/
def read? (cs : List Char) : Option Draft := ofBytes? (Text.Utf8.encode cs)

end Draft

end ChainBridge.Json
