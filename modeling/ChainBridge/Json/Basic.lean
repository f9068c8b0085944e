/-
JSON values.

Integers are kept apart from floating-point numbers, which are held by their bits. The members of an object stand in
the order in which they are written; `ofMembers` gives the order of a table, sorted by name, in which the last of
several members of one name wins.
-/

namespace ChainBridge

inductive Json where
  | null
  | bool (b : Bool)
  | integer (i : Int)
  | float (bits : UInt64)
  | text (s : String)
  | list (items : List Json)
  | object (members : List (String × Json))
deriving Repr

namespace Json

instance : Inhabited Json := ⟨.null⟩

def natural (n : Nat) : Json := .integer n

/-- puts a member into a sorted table, in place of one of the same name -/
def insertMember (name : String) (v : Json) : List (String × Json) → List (String × Json)
  | [] => [(name, v)]
  | (n, w) :: rest =>
    if name = n then (name, v) :: rest
    else if name < n then (name, v) :: (n, w) :: rest
    else (n, w) :: insertMember name v rest

/-- the sorted table of the given members -/
def sortMembers (members : List (String × Json)) : List (String × Json) :=
  members.foldl (fun table m => insertMember m.1 m.2 table) []

def ofMembers (members : List (String × Json)) : Json := .object (sortMembers members)

/-- the member of an object -/
def get? (name : String) : Json → Option Json
  | .object members => (members.find? (·.1 == name)).map (·.2)
  | _ => none

def text? : Json → Option String
  | .text s => some s
  | _ => none

def natural? : Json → Option Nat
  | .integer i => if 0 ≤ i then some i.toNat else none
  | _ => none

def bool? : Json → Option Bool
  | .bool b => some b
  | _ => none

def list? : Json → Option (List Json)
  | .list items => some items
  | _ => none

def members? : Json → Option (List (String × Json))
  | .object members => some members
  | _ => none

def isNull : Json → Bool
  | .null => true
  | _ => false

end Json

end ChainBridge
