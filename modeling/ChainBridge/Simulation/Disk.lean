/-
A tree of files in memory.

A path is a text of names between slashes that leads down from the top of the tree; `.` stays where it is and `..` goes
up, but never above the top. Everything on the way to the last name has to be a directory. What is refused is refused
in the way of an operating system.
-/
import ChainBridge.CommandLine.Procedure

namespace ChainBridge.Simulation

open CommandLine

/-- files and directories by the names that lead to them; a directory has no text -/
structure Disk where
  entries : List (List String × Option String)
deriving DecidableEq, Repr

namespace Disk

def empty : Disk := ⟨[]⟩

/-! ## Refusals -/

def notFound : Fault := ⟨2, "NotFound", "No such file or directory"⟩

def denied : Fault := ⟨13, "PermissionDenied", "Permission denied"⟩

def alreadyExists : Fault := ⟨17, "AlreadyExists", "File exists"⟩

def notDirectory : Fault := ⟨20, "NotADirectory", "Not a directory"⟩

def isDirectory : Fault := ⟨21, "IsADirectory", "Is a directory"⟩

/-! ## Looking -/

/-- what stands at a place; the top is a directory -/
def standing (d : Disk) (place : List String) : Entry :=
  if place = [] then .directory
  else
    match d.entries.lookup place with
    | none => .nothing
    | some none => .directory
    | some (some text) => .file text

/-- the place that names lead to from another one -/
def walk (d : Disk) : List String → List String → Except Fault (List String)
  | place, [] => .ok place
  | place, name :: rest =>
    match d.standing place with
    | .nothing => .error notFound
    | .file _ => .error notDirectory
    | .directory =>
      if name = "" ∨ name = "." then d.walk place rest
      else if name = ".." then (if place = [] then .error notFound else d.walk place.dropLast rest)
      else d.walk (place ++ [name]) rest

/-- the place that a path leads to -/
def resolve (d : Disk) (path : String) : Except Fault (List String) :=
  if path = "" then .error notFound
  else if "/".toList.isPrefixOf path.toList then .error denied
  else d.walk [] (path.splitOn "/")

/-- what stands at a path -/
def look (d : Disk) (path : String) : Entry :=
  match d.resolve path with
  | .ok place => d.standing place
  | .error _ => .nothing

/-! ## Writing -/

/-- puts something at a place, whatever stood there -/
def put (d : Disk) (place : List String) (text : Option String) : Disk :=
  ⟨(place, text) :: d.entries.filter fun e => e.1 ≠ place⟩

/-- makes the directories that names lead to, one inside the other; `last` is whether nothing comes behind the names -/
def makeDirectories (d : Disk) (place : List String) : List String → Except Fault Disk
  | [] => .ok d
  | name :: rest => do
    let place ← d.walk place [name]
    match d.standing place with
    | .directory => d.makeDirectories place rest
    | .nothing => (d.put place none).makeDirectories place rest
    | .file _ => .error (if rest = [] then alreadyExists else notDirectory)

/-- the names on the way to the last name of a path -/
def parents (path : String) : List String := ((path.splitOn "/").filter fun n => n ≠ "" ∧ n ≠ ".").dropLast

def write (d : Disk) (path text : String) : Except Fault Disk := do
  if "/".toList.isPrefixOf path.toList then throw denied
  let d ← d.makeDirectories [] (parents path)
  let place ← d.resolve path
  match d.standing place with
  | .directory => throw isDirectory
  | _ => return d.put place (some text)

end Disk

end ChainBridge.Simulation
