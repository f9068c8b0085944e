/-
Token logos: an address of a picture for some tokens, and one for all the others.
-/
import ChainBridge.Address

namespace ChainBridge.Repository

structure Logos where
  table : List (Address × String)
  fallback : String
deriving DecidableEq, Repr

namespace Logos

/-- puts a logo into a table, in place of an earlier one of the same token -/
def enter (table : List (Address × String)) (token : Address) (url : String) : List (Address × String) :=
  match table with
  | [] => [(token, url)]
  | (t, u) :: rest => if t = token then (t, url) :: rest else (t, u) :: enter rest token url

def logoFor (l : Logos) (token : Address) : String := (l.table.lookup token).getD l.fallback

end Logos

end ChainBridge.Repository
