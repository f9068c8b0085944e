/-
Configuration in layers: what is compiled in, a TOML file over it, and the environment over both.

A layer sets values at paths. `node.url` is the entry `url` of the table `node`, `a[2]` the third item of a list; a key
that is no path names an entry as it stands. Names are compared in lower case. A table that is set goes into the one
that stands there, entry by entry; everything else takes the place of what stands there. Tables and lists on the way
come into being, whatever stood in their place.

Texts, numbers and truth values are converted into each other where a section wants the other.
-/
import ChainBridge.Config.Json
import ChainBridge.Decimal.Shortest
import ChainBridge.Text.LowerCase
import ChainBridge.Toml.Document

namespace ChainBridge.Config

open Text

namespace Layers

/-! ## Paths -/

inductive Step where
  | entry (name : String)
  /-- negative ones count from the end -/
  | item (index : Int)
deriving DecidableEq, Repr

def isNameChar (c : Char) : Bool := c.isAlphanum || c == ' ' || c == '_' || c == '-'

def isBlank (c : Char) : Bool := c == ' ' || c == '\t'

/-- the index up to the closing bracket, and what follows that -/
def readIndex? (cs : List Char) : Option (Int × List Char) := do
  let cs := cs.dropWhile isBlank
  let (negative, cs) := match cs with
    | '-' :: r => (true, r)
    | r => (false, r)
  let digits := cs.takeWhile Char.isDigit
  let n : Nat := digits.foldl (fun n d => 10 * n + (d.toNat - '0'.toNat)) 0
  let i : Int := if negative then -n else n
  match (cs.dropWhile Char.isDigit).dropWhile isBlank with
  | ']' :: r => if digits.isEmpty ∨ i < -0x8000000000000000 ∨ 0x8000000000000000 ≤ i then none else some (i, r)
  | _ => none

/-- the steps behind the first name; each of them takes at least a character -/
def readSteps? : Nat → List Char → Option (List Step)
  | _, [] => some []
  | room + 1, '.' :: r =>
    match r.takeWhile isNameChar with
    | [] => none
    | name => (readSteps? room (r.dropWhile isNameChar)).map (.entry (String.ofList name) :: ·)
  | room + 1, '[' :: r => do
    let (i, r) ← readIndex? r
    return .item i :: (← readSteps? room r)
  | _, _ => none

/-- the path that a key stands for -/
def pathOf (key : String) : List Step :=
  match key.toList.takeWhile isNameChar with
  | [] => [.entry key]
  | name =>
    match readSteps? key.length (key.toList.dropWhile isNameChar) with
    | some steps => .entry (String.ofList name) :: steps
    | none => [.entry key]

/-! ## Setting values -/

def entriesOf : Option Json → List (String × Json)
  | some (.object members) => members
  | _ => []

def itemsOf : Option Json → List Json
  | some (.list items) => items
  | _ => []

mutual

/-- what becomes of a place when a value is set there -/
def overlay (old : Option Json) : Json → Json
  | .object members => overlayEntries (old.getD (.object [])) members
  | v => v

def overlayEntries (old : Json) : List (String × Json) → Json
  | [] => old
  | (name, v) :: rest =>
    let entries := entriesOf (some old)
    let name := LowerCase.ofText name
    overlayEntries (.object (Json.insertMember name (overlay (entries.lookup name) v) entries)) rest

end

/-- the place in a list of some length that an index means -/
def position (index : Int) (length : Nat) : Nat := if 0 ≤ index then index.toNat else length - index.natAbs

/-- puts an item into a list, which grows if it must -/
def putItem (n : Nat) (v : Json) (items : List Json) : List Json :=
  (items ++ List.replicate (n + 1 - items.length) Json.null).set n v

/-- what becomes of a place when a value is set at the end of a path that starts there -/
def place (v : Json) : List Step → Option Json → Json
  | [], old => overlay old v
  | .entry name :: rest, old =>
    let entries := entriesOf old
    let name := LowerCase.ofText name
    .object (Json.insertMember name (place v rest (entries.lookup name)) entries)
  | .item index :: rest, old =>
    let items := itemsOf old
    let n := position index items.length
    let inner := if rest.isEmpty then v else place v rest items[n]?
    .list (putItem n inner items)

/-- sets the values of a layer, one after the other -/
def addLayer (root : Json) (layer : List (String × Json)) : Json :=
  layer.foldl (fun root setting => place setting.2 (pathOf setting.1) (some root)) root

/-! ## Layers -/

/-- what is compiled in; of the lending section and of logos nothing stands in the lowest layer -/
def defaults : Json := .object [
  ("cache", Cache.default.toJson), ("logging", Logging.default.toJson), ("node", Node.default.toJson),
  ("tokens", .object [("default_logo", .text Tokens.default.defaultLogo)])]

/-- how the names of variables begin that are settings, in lower case -/
def variableMark : List Char := "motif__".toList

/-- two underscores separate the steps of a path -/
def separate : List Char → List Char
  | '_' :: '_' :: r => '.' :: separate r
  | c :: r => c :: separate r
  | [] => []

/-- the key that a variable sets, if it is a setting -/
def variableKey? (name : String) : Option String :=
  let cs := (LowerCase.ofText name).toList
  if variableMark.isPrefixOf cs then some (String.ofList (separate (cs.drop variableMark.length))) else none

/-- the settings among the variables -/
def environmentLayer (env : List (String × String)) : List (String × Json) :=
  env.filterMap fun v => (variableKey? v.1).map fun key => (key, .text v.2)

/-! ## Conversions -/

/-- the fields of a section, by name or by place; more items than fields do not count -/
def fields? (names : List String) : Json → Option (List (Option Json))
  | .object members => some (Reading.named names members)
  | .list items => some (Reading.placed names (items.take names.length))
  | _ => none

/-- the word nearest to a double; halves go up -/
def wordOfDouble : Decimal.Double → Nat
  | .nan | .zero _ => 0
  | .infinite negative => if negative then 0 else largestWord
  | .finite negative m q _ =>
    let unit := Nat.pow 2 (-q).toNat
    if negative then 0 else min ((2 * m * Nat.pow 2 q.toNat + unit) / (2 * unit)) largestWord

/-- a number in decimal, perhaps behind a plus sign -/
def wordOfDigits? (cs : List Char) : Option UInt64 :=
  let digits : List Char := match cs with
    | '+' :: r => r
    | r => r
  let n : Nat := digits.foldl (fun n d => 10 * n + (d.toNat - '0'.toNat)) 0
  if digits ≠ [] ∧ digits.all Char.isDigit ∧ n ≤ largestWord then some (UInt64.ofNat n) else none

/-- the number in a text; words for truth are numbers too -/
def wordOfText? (s : String) : Option UInt64 :=
  let lower := LowerCase.ofText s
  if ["true", "on", "yes"].contains lower then some 1
  else if ["false", "off", "no"].contains lower then some 0
  else wordOfDigits? s.toList

def word? : Json → Option UInt64
  | .integer i => if 0 ≤ i ∧ i ≤ largestWord then some (UInt64.ofNat i.toNat) else none
  | .text s => wordOfText? s
  | .bool b => some (if b then 1 else 0)
  | .float bits => some (UInt64.ofNat (wordOfDouble (.ofBits bits)))
  | _ => none

/-- a double in positional digits -/
def textOfDouble : Decimal.Double → List Char
  | .nan => ['N', 'a', 'N']
  | .infinite negative => if negative then ['-', 'i', 'n', 'f'] else ['i', 'n', 'f']
  | .zero negative => if negative then ['-', '0'] else ['0']
  | .finite negative m q narrow =>
    (if negative then ['-'] else []) ++ Decimal.positional [] (Decimal.shortest m q narrow)

def text? : Json → Option String
  | .text s => some s
  | .bool b => some (if b then "true" else "false")
  | .integer i => some (toString i)
  | .float bits => some (String.ofList (textOfDouble (.ofBits bits)))
  | _ => none

def reading : Reading := ⟨fields?, text?, word?⟩

end Layers

/-! ## Files -/

/-- where the configuration is looked for when nothing else is said -/
def defaultPath : String := "config/config.toml"

/-- the variable that says where to look -/
def pathVariable : String := "MOTIF_CONFIG"

/-- where to look, unless a path is given -/
def pathFrom (env : List (String × String)) : String := (env.lookup pathVariable).getD defaultPath

/-- how the names of configuration files end -/
def ending : List Char := ".toml".toList

/-- the last part of a path -/
def fileName (path : List Char) : List Char := (path.reverse.takeWhile (· != '/')).reverse

/-- whether the file at a path is a configuration file by its name -/
def hasEnding (path : String) : Bool :=
  let name := fileName path.toList
  ending.isSuffixOf name && decide (ending.length < name.length)

/-- where to look if there is no file at a path: the path with the ending behind it -/
def withEnding (path : String) : String :=
  String.ofList ((path.toList.reverse.dropWhile (· == '/')).reverse ++ ending)

/-- which text counts, of the file at a path and of the one with the ending behind it; a file with another ending is in
the way -/
def chosen (path : String) (here beside : Option String) : Option String :=
  match here with
  | some text => if hasEnding path then some text else none
  | none => beside

/-- the configuration that a file, if there is one, and the variables add up to -/
def load? (file : Option String) (env : List (String × String)) : Option Config := do
  let layer ← match file with
    | none => some []
    | some text => (← Toml.parse? text).members?
  let root := Layers.addLayer (Layers.addLayer Layers.defaults layer) (Layers.environmentLayer env)
  read? Layers.reading root

end ChainBridge.Config
