/-
The program let loose on a machine: its arguments, variables, files and network.

What it does is said by `CommandLine.program`; here is only how each thing is done. Servers that want a secure
connection can not be reached.
-/
import ChainBridge.CommandLine.Program
import ChainBridge.Rpc.Wire
import Std.Async.DNS
import Std.Async.TCP
import Std.Async.Timer
import Std.Internal.UV.System

namespace ChainBridge.Machine

open CommandLine Std.Async Std.Net

/-! ## Files -/

/-- kinds and words of faults, by their codes -/
def faults : List Fault := [
  ⟨1, "PermissionDenied", "Operation not permitted"⟩, ⟨2, "NotFound", "No such file or directory"⟩,
  ⟨13, "PermissionDenied", "Permission denied"⟩, ⟨17, "AlreadyExists", "File exists"⟩,
  ⟨20, "NotADirectory", "Not a directory"⟩, ⟨21, "IsADirectory", "Is a directory"⟩,
  ⟨28, "StorageFull", "No space left on device"⟩, ⟨30, "ReadOnlyFilesystem", "Read-only file system"⟩]

/-- the code of an error that the operating system reported; some codes come with their sign -/
def codeOf (e : IO.Error) : Nat :=
  let code : UInt32 := match e with
    | .alreadyExists _ code _ => code
    | .inappropriateType _ code _ => code
    | .invalidArgument _ code _ => code
    | .noFileOrDirectory _ code _ => code
    | .permissionDenied _ code _ => code
    | .resourceExhausted _ code _ => code
    | .otherError code _ => code
    | _ => 0
  if code < 0x80000000 then code.toNat else 0x100000000 - code.toNat

def faultOf (e : IO.Error) : Fault :=
  (faults.find? fun f => f.code == codeOf e).getD ⟨codeOf e, "Uncategorized", toString e⟩

def look (path : String) : IO Entry := do
  try
    return .file (← IO.FS.readFile path)
  catch e =>
    match codeOf e with
    | 0 => return .file ""
    | 21 => return .directory
    | _ => return .nothing

/-- the part of a path before its last name -/
def parentOf (path : String) : String :=
  let cs := path.toList.reverse.dropWhile (· == '/')
  let before := cs.dropWhile (· != '/')
  if before.all (· == '/') then String.ofList (before.take 1) else String.ofList (before.dropWhile (· == '/')).reverse

def write (path text : String) : IO (Option Fault) := do
  try
    if parentOf path ≠ "" then IO.FS.createDirAll (parentOf path)
    IO.FS.writeFile path text
    return none
  catch e => return some (faultOf e)

/-! ## Network -/

/-- the addresses of a server -/
def addressesOf (s : Rpc.Wire.Server) : Async (List SocketAddress) := do
  let host := s.host.toList.filter fun c => c != '[' && c != ']'
  let found ← DNS.getAddrInfo (String.ofList host) (toString s.service)
  return found.toList.map fun
    | .v4 a => .v4 ⟨a, UInt16.ofNat s.service⟩
    | .v6 a => .v6 ⟨a, UInt16.ofNat s.service⟩

/-- a connection to the first of some addresses that takes one -/
def connect : List SocketAddress → Async (Option TCP.Socket.Client)
  | [] => return none
  | a :: rest => do
    let socket ← TCP.Socket.Client.mk
    try
      socket.connect a
      return some socket
    catch _ => connect rest

/-- the most pieces that an answer may come in -/
def mostPieces : Nat := 1000000

/-- adds pieces to the bytes that came so far, until they are an answer or nothing more comes -/
def receive (socket : TCP.Socket.Client) (sofar : IO.Ref (List UInt8)) : Nat → Async Unit
  | 0 => return ()
  | pieces + 1 => do
    match ← socket.recv? 65536 with
    | none => return ()
    | some bytes =>
      sofar.modify (· ++ bytes.toList)
      if Rpc.Wire.isComplete (← sofar.get) then return () else receive socket sofar pieces

/-- sends a request; what comes back is put into `sofar`, and the result is whether there was a connection -/
def exchange (s : Rpc.Wire.Server) (body : String) (sofar : IO.Ref (List UInt8)) : Async Bool := do
  let addresses ← try addressesOf s catch _ => pure []
  match ← connect addresses with
  | none => return false
  | some socket =>
    try
      socket.send (Rpc.Wire.request s body).toByteArray
      receive socket sofar mostPieces
    catch _ => pure ()
    return true

/-- waits and then has no answer -/
def expire (seconds : Nat) : Async (Option Bool) := do
  sleep (.ofInt (seconds * 1000))
  return none

def send (url : String) (patience : Nat) (request : Rpc.RequestEnvelope) : IO Rpc.Delivery := do
  match Rpc.Wire.server? url with
  | none => return .unusableUrl
  | some s =>
    if s.secure then return .unreachable
    let sofar ← IO.mkRef []
    match ← (Async.race (some <$> exchange s request.write sofar) (expire patience)).block with
    | none => return Rpc.Wire.delivery true (← sofar.get)
    | some false => return .unreachable
    | some true => return Rpc.Wire.delivery false (← sofar.get)

/-! ## Procedures -/

def run : Procedure → IO UInt32
  | .exit code => return UInt32.ofNat code
  | .print line next => do
    IO.println line
    run next
  | .remark line next => do
    IO.eprintln line
    run next
  | .expose registry next => do
    for line in registry.exposition do IO.println line
    run next
  | .look path next => do run (next (← look path))
  | .write path text next => do run (next (← write path text))
  | .send url patience request next => do run (next (← send url patience request))

end ChainBridge.Machine

def main (args : List String) : IO UInt32 := do
  let env ← Std.Internal.UV.System.osEnviron
  ChainBridge.Machine.run (ChainBridge.CommandLine.program env.toList args)
