/-
TOML documents: values, and the statements that a document consists of.

A statement opens a table, opens the next table of an array of tables, or gives a key of the open table a value. What
statements add up to, and which of them contradict each other, is the matter of `Toml.Tree`, which also puts together
the tables that stand inside of values.
-/
import ChainBridge.Toml.Lexeme
import ChainBridge.Toml.Tree

namespace ChainBridge.Toml

/-! ## Values -/

mutual

/-- reads a value in which `room` more containers may be nested; every call spends one unit of fuel -/
def readValue : Nat → Nat → List Char → Option (Json × List Char)
  | 0, _, _ => none
  | fuel + 1, room, cs =>
    match readText? cs with
    | some found => found.map fun (text, r) => (.text (String.ofList text), r)
    | none =>
      match cs, room with
      | '[' :: r, room + 1 => (readItems fuel room r).map fun (vs, r) => (.list vs, r)
      | '\x7b' :: r, room + 1 =>
        match skipBlank r with
        | '\x7d' :: r => some (.object [], r)
        | r => do
          let (pairs, r) ← readPairs fuel room r
          return (← Tree.inlineTable? pairs, r)
      | cs, _ =>
        let (scalar, r) := token cs
        (scalar? scalar).map (·, r)

/-- reads what is left of a list, up to and with the closing bracket -/
def readItems : Nat → Nat → List Char → Option (List Json × List Char)
  | 0, _, _ => none
  | fuel + 1, room, cs => do
    match ← skipLines (cs.length + 1) cs with
    | ']' :: r => return ([], r)
    | r =>
      let (v, r) ← readValue fuel room r
      match ← skipLines (r.length + 1) r with
      | ',' :: r =>
        let (vs, r) ← readItems fuel room r
        return (v :: vs, r)
      | ']' :: r => return ([v], r)
      | _ => none

/-- reads the pairs of a table on one line, up to and with the closing brace -/
def readPairs : Nat → Nat → List Char → Option (List (Tree.Pair) × List Char)
  | 0, _, _ => none
  | fuel + 1, room, cs => do
    let ((path, key), r) ← readKey depthLimit cs
    let r ← expect? '=' r
    let (v, r) ← readValue fuel room (skipBlank r)
    match skipBlank r with
    | ',' :: r =>
      let (pairs, r) ← readPairs fuel room r
      return (⟨path, key, v⟩ :: pairs, r)
    | '\x7d' :: r => return ([⟨path, key, v⟩], r)
    | _ => none

end

/-! ## Statements -/

/-- reads the statement that starts here, up to the end of its line -/
def readStatement : List Char → Option (Tree.Statement × List Char)
  | '[' :: '[' :: r => do
    let ((path, key), r) ← readKey depthLimit r
    let r ← expect? ']' (← expect? ']' r)
    return (.openNext path key, ← endLine? r)
  | '[' :: r => do
    let ((path, key), r) ← readKey depthLimit r
    let r ← expect? ']' r
    return (.openTable path key, ← endLine? r)
  | cs => do
    let ((path, key), r) ← readKey depthLimit cs
    let r ← expect? '=' r
    let (v, r) ← readValue (2 * cs.length + 2) (depthLimit - 1) (skipBlank r)
    return (.assign ⟨path, key, v⟩, ← endLine? r)

/-- reads statements and empty lines up to the end; every round ends a line -/
def readStatements : Nat → List Char → Option (List Tree.Statement)
  | 0, _ => none
  | fuel + 1, cs =>
    match skipBlank cs with
    | [] => some []
    | r =>
      match endLine? r with
      | some rest => readStatements fuel rest
      | none => do
        let (s, rest) ← readStatement r
        return s :: (← readStatements fuel rest)

/-- reads a document; a byte order mark in front does not count -/
def parse? (s : String) : Option Json := do
  let cs := match s.toList with
    | '\uFEFF' :: r => r
    | cs => cs
  Tree.ofStatements? (← readStatements (cs.length + 1) cs)

end ChainBridge.Toml
