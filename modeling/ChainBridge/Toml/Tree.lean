/-
What the statements of a TOML document add up to.

A table comes into being in one of three ways: it is opened by a header of its own, it is implied by the header of a
table inside of it, or a dotted key passes through it. Only an implied table may be opened later on, and only a dotted
one may be passed through again; a value is closed once it is written. No key is given twice.
-/
import ChainBridge.Json.Basic

namespace ChainBridge.Toml.Tree

/-- how a table came into being -/
inductive Origin where
  | opened
  | implied
  | dotted
deriving DecidableEq, Repr

inductive Item where
  | value (v : Json)
  | table (origin : Origin) (items : List (String × Item))
  /-- an array of tables, the open one last -/
  | tables (closed : List (List (String × Item))) (last : List (String × Item))

abbrev Items := List (String × Item)

/-- a key, the tables it passes through, and its value -/
structure Pair where
  path : List String
  key : String
  value : Json

inductive Statement where
  | openTable (path : List String) (key : String)
  /-- the next table of an array of tables -/
  | openNext (path : List String) (key : String)
  | assign (pair : Pair)

/-- puts an item in place of the one under a key, or at the end -/
def put (key : String) (item : Item) : Items → Items
  | [] => [(key, item)]
  | (k, i) :: rest => if k = key then (key, item) :: rest else (k, i) :: put key item rest

/-! ## Ways through tables -/

/-- changes the table at the end of a path; tables on the way that do not exist come into being with the origin `way` -/
def change (way : Origin) (path : List String) (edit : Origin → Items → Option Items) (origin : Origin) (items : Items) :
    Option Items :=
  match path with
  | [] => edit origin items
  | key :: rest =>
    match items.lookup key with
    | none => do
      let inner ← change way rest edit way []
      return put key (.table way inner) items
    | some (.value _) => none
    | some (.tables closed last) => do
      let last ← change way rest edit .opened last
      return put key (.tables closed last) items
    | some (.table o inner) =>
      if way = .dotted ∧ o = .opened then none
      else do
        let inner ← change way rest edit o inner
        return put key (.table o inner) items

/-- gives a key a value, in a table that dotted keys pass through exactly if the key is dotted -/
def give (pair : Pair) (origin : Origin) (items : Items) : Option Items :=
  change .dotted pair.path (fun o inner =>
    if (o = .dotted) = pair.path.isEmpty then none
    else
      match inner.lookup pair.key with
      | some _ => none
      | none => some (put pair.key (.value pair.value) inner)) origin items

/-- opens a table -/
def openTable (path : List String) (key : String) (items : Items) : Option Items :=
  change .implied path (fun _ inner =>
    match inner.lookup key with
    | none => some (put key (.table .opened []) inner)
    | some (.table .implied old) => some (put key (.table .opened old) inner)
    | some _ => none) .opened items

/-- opens the next table of an array of tables -/
def openNext (path : List String) (key : String) (items : Items) : Option Items :=
  change .implied path (fun _ inner =>
    match inner.lookup key with
    | none => some (put key (.tables [] []) inner)
    | some (.tables closed last) => some (put key (.tables (closed ++ [last]) []) inner)
    | some _ => none) .opened items

/-! ## Values of trees -/

mutual

def valueOf : Item → Json
  | .value v => v
  | .table _ items => .ofMembers (membersOf items)
  | .tables closed last => .list (tablesOf closed ++ [.ofMembers (membersOf last)])

def membersOf : List (String × Item) → List (String × Json)
  | [] => []
  | (key, item) :: rest => (key, valueOf item) :: membersOf rest

def tablesOf : List (List (String × Item)) → List Json
  | [] => []
  | items :: rest => .ofMembers (membersOf items) :: tablesOf rest

end

/-- the table that stands inside of a value -/
def inlineTable? (pairs : List Pair) : Option Json := do
  let items ← pairs.foldlM (fun items pair => give pair .opened items) []
  return .ofMembers (membersOf items)

/-- the items of a document and the path of the open table -/
def follow (state : Items × List String) : Statement → Option (Items × List String)
  | .openTable path key => (openTable path key state.1).map (·, path ++ [key])
  | .openNext path key => (openNext path key state.1).map (·, path ++ [key])
  | .assign pair => (change .implied state.2 (give pair) .opened state.1).map (·, state.2)

/-- the table that a document describes -/
def ofStatements? (statements : List Statement) : Option Json := do
  let (items, _) ← statements.foldlM follow ([], [])
  return .ofMembers (membersOf items)

end ChainBridge.Toml.Tree
