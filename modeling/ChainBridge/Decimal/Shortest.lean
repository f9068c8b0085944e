/-
The shortest decimal that reads back as a given double.

A finite double is m · 2^q. Every real in the interval around it that reaches half way to its neighbours reads back as
it; the ends belong to the interval exactly when m is even. `shortest` tries 1, 2, … 17 digits and tests the two
neighbours of the value on that decimal grid in exact arithmetic: the first grid with a hit wins, of two hits the
nearer, and of two equally near the one whose last digit is even.
-/

namespace ChainBridge.Decimal

/-- a positive decimal: `digits` with the point before the digit at index `point`, so 0.digits · 10^point -/
structure Scaled where
  digits : List Char
  point : Int
deriving DecidableEq, Repr

/-- what a double is -/
inductive Double where
  | nan
  | infinite (negative : Bool)
  | zero (negative : Bool)
  /-- m · 2^q, and whether the gap below is half the gap above -/
  | finite (negative : Bool) (m : Nat) (q : Int) (narrow : Bool)
deriving DecidableEq, Repr

/-- the bit in front of a fraction of 52 bits -/
def hiddenBit : Nat := 0x10000000000000

def Double.ofBits (bits : UInt64) : Double :=
  let n := bits.toNat
  let negative := decide (0x8000000000000000 ≤ n)
  let exponent : Nat := n / hiddenBit % 0x800
  let fraction : Nat := n % hiddenBit
  if exponent = 2047 then (if fraction = 0 then .infinite negative else .nan)
  else if exponent = 0 then (if fraction = 0 then .zero negative else .finite negative fraction (-1074) false)
  else .finite negative (hiddenBit + fraction) ((exponent : Int) - 1075) (decide (fraction = 0 ∧ 1 < exponent))

/-- the decimal digits of a number -/
def naturalDigits (n : Nat) : List Char := Nat.toDigits 10 n

/-- the digits of `c · 10^grid` without zeros at the end -/
def scaled (c : Nat) (grid : Int) : Scaled :=
  let ds := naturalDigits c
  ⟨(ds.reverse.dropWhile (· == '0')).reverse, ds.length + grid⟩

/-- the hit with `n` digits, if that grid has one; `magnitude` is the number of digits before the point -/
def onGrid (m : Nat) (q : Int) (narrow : Bool) (magnitude : Int) (n : Nat) : Option Scaled :=
  let grid := magnitude - n
  -- c · 10^grid against x · 2^(q - 2), both sides whole
  let a := Nat.pow 10 grid.toNat * Nat.pow 2 (2 - q).toNat
  let b := Nat.pow 10 (-grid).toNat * Nat.pow 2 (q - 2).toNat
  let value := 4 * m * b
  let lo := (4 * m - if narrow then 1 else 2) * b
  let hi := (4 * m + 2) * b
  let within (c : Nat) : Bool := if m % 2 = 0 then lo ≤ c * a && c * a ≤ hi else lo < c * a && c * a < hi
  let below := value / a
  let above := below + 1
  match within below, within above with
  | false, false => none
  | true, false => some (scaled below grid)
  | false, true => some (scaled above grid)
  | true, true =>
    let down := value - below * a
    let up := above * a - value
    if down < up ∨ (down = up ∧ below % 2 = 0) then some (scaled below grid) else some (scaled above grid)

/-- the shortest decimal of m · 2^q -/
def shortest (m : Nat) (q : Int) (narrow : Bool) : Scaled :=
  -- 400 places are more than the smallest double needs to have a digit before the point
  let wide := m * Nat.pow 2 q.toNat * Nat.pow 10 400 / Nat.pow 2 (-q).toNat
  let magnitude : Int := (naturalDigits wide).length - 400
  (((List.range 17).map (· + 1)).findSome? (onGrid m q narrow magnitude)).getD ⟨['0'], 1⟩

/-! ## Notations -/

/-- digits with the point where it belongs, and zeros up to it; `whole` is appended when nothing follows the point -/
def positional (whole : List Char) (d : Scaled) : List Char :=
  if d.point ≤ 0 then '0' :: '.' :: List.replicate (-d.point).toNat '0' ++ d.digits
  else if d.digits.length ≤ d.point then
    d.digits ++ List.replicate (d.point - d.digits.length).toNat '0' ++ whole
  else d.digits.take d.point.toNat ++ '.' :: d.digits.drop d.point.toNat

/-- one digit, the others behind a point, and the exponent after an e -/
def scientific (d : Scaled) : List Char :=
  let mantissa := match d.digits with
    | c :: rest@(_ :: _) => c :: '.' :: rest
    | ds => ds
  mantissa ++ 'e' :: (toString (d.point - 1)).toList

end ChainBridge.Decimal
