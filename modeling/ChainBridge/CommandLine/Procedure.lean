/-
What a command does to its surroundings, one thing after the other.

A procedure prints, looks at files, writes them and sends requests to the node; what it does next may depend on what it
finds. It says nothing about how its surroundings answer: a procedure can be let loose on a machine, or followed through
a tree of files in memory and a scripted link.
-/
import ChainBridge.Metrics
import ChainBridge.Rpc.Exchange

namespace ChainBridge.CommandLine

/-- what stands at a path -/
inductive Entry where
  | nothing
  | directory
  | file (text : String)
deriving DecidableEq, Repr

def Entry.text? : Entry → Option String
  | .file text => some text
  | _ => none

/-- why the operating system refuses: its code, the kind of the failure and its words -/
structure Fault where
  code : Nat
  kind : String
  words : String
deriving DecidableEq, Repr

/-- how a fault is shown -/
def Fault.debug (f : Fault) : String :=
  "Os \x7b code: " ++ toString f.code ++ ", kind: " ++ f.kind ++ ", message: " ++ Text.Quoted.text f.words ++ " \x7d"

inductive Procedure where
  | exit (code : Nat)
  /-- prints a line of results -/
  | print (line : String) (next : Procedure)
  /-- prints a line about the work -/
  | remark (line : String) (next : Procedure)
  /-- prints the exposition of counters and gauges among the results -/
  | expose (registry : Metrics.Registry) (next : Procedure)
  | look (path : String) (next : Entry → Procedure)
  /-- writes a file, and makes the directories on the way to it -/
  | write (path text : String) (next : Option Fault → Procedure)
  /-- sends a request to a URL and waits for so many seconds at most -/
  | send (url : String) (patience : Nat) (request : Rpc.RequestEnvelope) (next : Rpc.Delivery → Procedure)

namespace Procedure

def printAll (lines : List String) (next : Procedure) : Procedure := lines.foldr .print next

def remarkAll (lines : List String) (next : Procedure) : Procedure := lines.foldr .remark next

/-- ends with an error -/
def fail (error : String) : Procedure := .remark ("Error: " ++ error) (.exit 1)

end Procedure

end ChainBridge.CommandLine
