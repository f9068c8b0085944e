/-
Keccak-256: the sponge over 1600 bits with a rate of 136 bytes and a padding that opens
with a single one bit.

The state is 25 lanes of 64 bits; lane (x, y) stands at index x + 5y. A round is five maps one after the other
(theta, rho, pi, chi, iota), and the permutation is 24 rounds that differ in the constant iota adds.
-/

namespace ChainBridge.Keccak

/-! ## The permutation -/

abbrev State := List UInt64

/-- lane (x, y), both taken modulo 5 -/
def lane (s : State) (x y : Nat) : UInt64 := s.getD (x % 5 + 5 * (y % 5)) 0

/-- the state with the given lanes -/
def State.ofLanes (f : Nat → Nat → UInt64) : State := (List.range 25).map fun i => f (i % 5) (i / 5)

def rotateLeft (w : UInt64) (n : Nat) : UInt64 :=
  if n % 64 = 0 then w else (w <<< UInt64.ofNat (n % 64)) ||| (w >>> UInt64.ofNat (64 - n % 64))

/-- adds to each lane the parities of two columns beside it -/
def theta (s : State) : State :=
  let parity := (List.range 5).map fun x => lane s x 0 ^^^ lane s x 1 ^^^ lane s x 2 ^^^ lane s x 3 ^^^ lane s x 4
  let column x := parity.getD (x % 5) 0
  State.ofLanes fun x y => lane s x y ^^^ column (x + 4) ^^^ rotateLeft (column (x + 1)) 1

/-- how far rho rotates each lane -/
def offsets : List Nat :=
  [0, 1, 62, 28, 27, 36, 44, 6, 55, 20, 3, 10, 43, 25, 39, 41, 45, 15, 21, 8, 18, 2, 61, 56, 14]

def rho (s : State) : State := State.ofLanes fun x y => rotateLeft (lane s x y) (offsets.getD (x + 5 * y) 0)

/-- moves lane (x + 3y, x) to (x, y) -/
def pi (s : State) : State := State.ofLanes fun x y => lane s (x + 3 * y) x

def chi (s : State) : State := State.ofLanes fun x y => lane s x y ^^^ (~~~ lane s (x + 1) y &&& lane s (x + 2) y)

def iota (constant : UInt64) (s : State) : State :=
  State.ofLanes fun x y => if x = 0 ∧ y = 0 then lane s 0 0 ^^^ constant else lane s x y

def round (s : State) (constant : UInt64) : State := iota constant (chi (pi (rho (theta s))))

def constants : List UInt64 :=
  [0x0000000000000001, 0x0000000000008082, 0x800000000000808A, 0x8000000080008000,
   0x000000000000808B, 0x0000000080000001, 0x8000000080008081, 0x8000000000008009,
   0x000000000000008A, 0x0000000000000088, 0x0000000080008009, 0x000000008000000A,
   0x000000008000808B, 0x800000000000008B, 0x8000000000008089, 0x8000000000008003,
   0x8000000000008002, 0x8000000000000080, 0x000000000000800A, 0x800000008000000A,
   0x8000000080008081, 0x8000000000008080, 0x0000000080000001, 0x8000000080008008]

def permute (s : State) : State := constants.foldl round s

/-! ## The sponge -/

/-- bytes taken in between two permutations -/
def rate : Nat := 136

/-- appends the one bit and the closing bit, up to a whole number of blocks -/
def pad (message : List UInt8) : List UInt8 :=
  let gap := rate - message.length % rate
  if gap = 1 then message ++ [0x81] else message ++ 0x01 :: List.replicate (gap - 2) 0 ++ [0x80]

/-- the first `n` blocks of a padded message -/
def blocks (message : List UInt8) : Nat → List (List UInt8)
  | 0 => []
  | n + 1 => message.take rate :: blocks (message.drop rate) n

/-- lane `i` of a block, its first byte lowest -/
def blockLane (block : List UInt8) (i : Nat) : UInt64 :=
  ((block.drop (8 * i)).take 8).foldr (fun b w => (w <<< 8) ||| b.toUInt64) 0

def absorb (s : State) (block : List UInt8) : State :=
  permute (State.ofLanes fun x y =>
    if x + 5 * y < 17 then lane s x y ^^^ blockLane block (x + 5 * y) else lane s x y)

/-- the bytes of a lane, lowest first -/
def laneBytes (w : UInt64) : List UInt8 := (List.range 8).map fun i => (w >>> UInt64.ofNat (8 * i)).toUInt8

def digest (message : List UInt8) : List UInt8 :=
  let padded := pad message
  let s := (blocks padded (padded.length / rate)).foldl absorb (List.replicate 25 0)
  (s.take 4).flatMap laneBytes

end ChainBridge.Keccak
