/-
A procedure followed through a tree of files in memory, over a link whose deliveries are given.

What it leaves behind is written down: how it ended, what it printed, the files, and the requests that were sent.
-/
import ChainBridge.Simulation.Disk

namespace ChainBridge.Simulation

open CommandLine

/-- what a procedure leaves behind -/
structure Record where
  code : Nat
  results : List String
  remarks : List String
  exposed : Option Metrics.Registry
  disk : Disk
  sent : List Rpc.RequestEnvelope

/-- what a link brings for a request to a URL -/
abbrev Wire := String → Rpc.RequestEnvelope → Rpc.Delivery

def follow (wire : Wire) (disk : Disk) : Procedure → Record
  | .exit code => ⟨code, [], [], none, disk, []⟩
  | .print line next =>
    let r := follow wire disk next
    { r with results := line :: r.results }
  | .remark line next =>
    let r := follow wire disk next
    { r with remarks := line :: r.remarks }
  | .expose registry next => { follow wire disk next with exposed := some registry }
  | .look path next => follow wire disk (next (disk.look path))
  | .write path text next =>
    match disk.write path text with
    | .ok after => follow wire after (next none)
    | .error fault => follow wire disk (next (some fault))
  | .send url _ request next =>
    let r := follow wire disk (next (wire url request))
    { r with sent := request :: r.sent }

end ChainBridge.Simulation
