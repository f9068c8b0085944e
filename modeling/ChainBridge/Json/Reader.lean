/-
What a JSON document means.

Bytes of a text and code units written as escapes must form characters, at most 127 containers may be nested, and a
number must not be too large for a double. An integer that fits 64 bits stays one; any other number is a double,
computed from at most 64 bits of its digits by multiplying or dividing with powers of ten.
-/
import ChainBridge.Json.Basic
import ChainBridge.Json.Draft

namespace ChainBridge.Json

/-! ## Texts -/

/-- the characters of a text, unless bytes are no text or a code unit lacks its partner -/
def charsOf : List Piece → Option (List Char)
  | [] => some []
  | .stray :: _ => none
  | .plain c :: r => (charsOf r).map (c :: ·)
  | .unit n :: r =>
    if 0xD800 ≤ n ∧ n < 0xDC00 then
      match r with
      | .unit m :: r =>
        if 0xDC00 ≤ m ∧ m < 0xE000 then
          (charsOf r).map (Char.ofNat (0x10000 + (n - 0xD800) * 0x400 + (m - 0xDC00)) :: ·)
        else none
      | _ => none
    else if 0xDC00 ≤ n ∧ n < 0xE000 then none
    else (charsOf r).map (Char.ofNat n :: ·)

def textOf (pieces : List Piece) : Option String := (charsOf pieces).map String.ofList

/-! ## Numbers -/

namespace Numeral

def digitValue (c : Char) : Nat := c.toNat - 48

/-- appends digits to a number as long as it stays below 2^64; the digits that are left -/
def gather (n : Nat) : List Char → Nat × List Char
  | [] => (n, [])
  | d :: ds => if 10 * n + digitValue d < 0x10000000000000000 then gather (10 * n + digitValue d) ds else (n, d :: ds)

def powerOfTen (n : Nat) : Float := OfScientific.ofScientific 1 false n

/-- multiplies by a power of ten, one step of at most 308 places at a time; nothing if the result is too large -/
def scale (x : Float) (exponent : Int) : Nat → Option Float
  | 0 => some x
  | fuel + 1 =>
    if exponent.natAbs ≤ 308 then
      if 0 ≤ exponent then
        let y := x * powerOfTen exponent.toNat
        if y.isInf then none else some y
      else some (x / powerOfTen (-exponent).toNat)
    else if x == 0.0 then some x
    else if 0 ≤ exponent then none
    else scale (x / powerOfTen 308) (exponent + 308) fuel

def signed (negative : Bool) (x : Float) : Json := .float (if negative then -x else x).toBits

/-- the largest exponent that is looked at digit by digit -/
def maxExponent : Nat := 0x7FFFFFFF

/-- a floating-point number from the digits gathered so far and the place of the last of them -/
def toFloat (negative : Bool) (n : Nat) (place : Int) (exponent : Option (Bool × List Char)) : Option Json :=
  match exponent with
  | none => (scale (Float.ofNat n) place 8).map (signed negative)
  | some (down, ds) =>
    let e := ds.foldl (fun e d => 10 * e + digitValue d) 0
    if maxExponent < e then
      if n ≠ 0 ∧ !down then none else some (signed negative 0.0)
    else
      let place := if down then place - e else place + e
      (scale (Float.ofNat n) place 8).map (signed negative)

/-- the value of a numeral, unless it is too large -/
def toJson? (t : Numeral) : Option Json :=
  let (n, left) := gather 0 t.whole
  match left, t.fraction, t.exponent with
  | [], none, none =>
    if !t.negative then some (.integer n)
    else if n = 0 ∨ 0x8000000000000000 < n then some (signed true (Float.ofNat n))
    else some (.integer (-(n : Int)))
  | left, none, exponent => toFloat t.negative n left.length exponent
  | left, some ds, exponent =>
    let (m, rest) := gather n ds
    toFloat t.negative m ((left.length : Int) - ((ds.length : Int) - rest.length)) exponent

end Numeral

/-! ## Values -/

/-- how many containers may stand one inside the other -/
def maxDepth : Nat := 127

mutual

/-- the value of a draft in which `room` more containers may be nested -/
def ofDraft (room : Nat) : Draft → Option Json
  | .null => some .null
  | .bool b => some (.bool b)
  | .number n => n.toJson?
  | .text ps => (textOf ps).map .text
  | .list items =>
    match room with
    | 0 => none
    | room + 1 => (ofItems room items).map .list
  | .object members =>
    match room with
    | 0 => none
    | room + 1 => (ofMemberDrafts room members).map ofMembers

def ofItems (room : Nat) : List Draft → Option (List Json)
  | [] => some []
  | d :: ds => do
    let v ← ofDraft room d
    let vs ← ofItems room ds
    return v :: vs

def ofMemberDrafts (room : Nat) : List (List Piece × Draft) → Option (List (String × Json))
  | [] => some []
  | (ps, d) :: ms => do
    let name ← textOf ps
    let v ← ofDraft room d
    let rest ← ofMemberDrafts room ms
    return (name, v) :: rest

end

/-- reads a document -/
def parse? (s : String) : Option Json := (Draft.read? s.toList).bind (ofDraft maxDepth)

end ChainBridge.Json
