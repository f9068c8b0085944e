/-
How long a cache keeps its entries, how many bytes they may take and how often expired ones are swept out.

Times are in milliseconds. A cache whose entries would expire at once, or that could hold none, is refused.
-/
import ChainBridge.Text.Quoted

namespace ChainBridge.Cache

/-- what a cache itself can refuse or fail with -/
inductive Error where
  | zeroTtl
  | zeroCapacity
  /-- a fill ended without an outcome; the key as it is shown in messages -/
  | fetchAbandoned (key : String)
deriving DecidableEq, Repr

def Error.message : Error → String
  | .zeroTtl => "cache ttl must be greater than zero"
  | .zeroCapacity => "cache max size must be greater than zero"
  | .fetchAbandoned key => "cache fill for " ++ key ++ " was abandoned before completing"

/-- how an error is shown -/
def Error.debug : Error → String
  | .zeroTtl => "ZeroTtl"
  | .zeroCapacity => "ZeroCapacity"
  | .fetchAbandoned key => "FetchAbandoned(" ++ Text.Quoted.text key ++ ")"

structure Policy where
  defaultTtl : Nat
  maxSize : Nat
  /-- zero turns the sweeper off -/
  sweepInterval : Nat
deriving DecidableEq, Repr

namespace Policy

/-- fifteen minutes, four gibibytes, a sweep every minute -/
def default : Policy := ⟨900000, 0x100000000, 60000⟩

instance : Inhabited Policy := ⟨default⟩

def validate (p : Policy) : Except Error Unit :=
  if p.defaultTtl = 0 then .error .zeroTtl
  else if p.maxSize = 0 then .error .zeroCapacity
  else .ok ()

end Policy

end ChainBridge.Cache
