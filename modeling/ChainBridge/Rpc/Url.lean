/-
Which texts name a web server that can be tried.

A URL has the scheme http or https, a host that is a name or an internet address, and perhaps the number of a service,
below 65536. Blanks and controls around the text, and tabs and line feeds in it, do not count; slashes lean either way
and may be missing. A name must not contain characters that mean something elsewhere in a URL, and a name whose last
part is a number must be an internet address of version 4.
-/
import ChainBridge.Text.Hex

namespace ChainBridge.Rpc.Url

open Text

/-! ## Pieces -/

/-- splits at every character that satisfies a test -/
def splitAll (p : Char → Bool) : List Char → List (List Char)
  | [] => [[]]
  | c :: r =>
    if p c then [] :: splitAll p r
    else
      match splitAll p r with
      | [] => [[c]]
      | part :: rest => (c :: part) :: rest

def isControlOrBlank (c : Char) : Bool := c.toNat ≤ 0x20

/-- the text without what does not count -/
def clean (cs : List Char) : List Char :=
  let cs := ((cs.dropWhile isControlOrBlank).reverse.dropWhile isControlOrBlank).reverse
  cs.filter fun c => c != '\t' && c != '\n' && c != '\r'

def lower (cs : List Char) : List Char := cs.map Char.toLower

/-- what follows the scheme, if it is one of the two -/
def unscheme? (cs : List Char) : Option (List Char) :=
  let scheme := lower (cs.takeWhile (· != ':'))
  if scheme = ['h', 't', 't', 'p'] ∨ scheme = ['h', 't', 't', 'p', 's'] then
    match cs.dropWhile (· != ':') with
    | _ :: r => some r
    | [] => none
  else none

def isSlash (c : Char) : Bool := c == '/' || c == '\\'

/-- the host with the number of a service, without what stands before an at sign -/
def authority (cs : List Char) : List Char :=
  let cs := (cs.dropWhile isSlash).takeWhile fun c => !(isSlash c || c == '?' || c == '#')
  (cs.reverse.takeWhile (· != '@')).reverse

/-- the host and the digits of the service's number -/
def splitService (cs : List Char) : List Char × List Char :=
  match cs with
  | '[' :: _ =>
    let host := cs.takeWhile (· != ']')
    match cs.dropWhile (· != ']') with
    | close :: ':' :: service => (host ++ [close], service)
    | close :: rest => (host ++ [close] ++ rest, [])
    | [] => (host, [])
  | cs =>
    match cs.dropWhile (· != ':') with
    | _ :: service => (cs.takeWhile (· != ':'), service)
    | [] => (cs, [])

def isService (ds : List Char) : Bool :=
  ds.all Char.isDigit && ds.foldl (fun n d => min (10 * n + (d.toNat - 48)) 65536) 0 < 65536

/-! ## Hosts -/

/-- the characters that percent signs stand for -/
def unescape : List Char → List Char
  | '%' :: a :: b :: r =>
    match Hex.digit? a, Hex.digit? b with
    | some x, some y => Char.ofNat (16 * x + y) :: unescape r
    | _, _ => '%' :: unescape (a :: b :: r)
  | c :: r => c :: unescape r
  | [] => []
termination_by cs => cs.length

def isForbidden (c : Char) : Bool :=
  isControlOrBlank c || c.toNat == 0x7F ||
    ['#', '/', ':', '<', '>', '?', '@', '[', '\\', ']', '^', '|', '%'].contains c

/-- the number in a part of an internet address: decimal, octal behind a zero, hexadecimal behind 0x -/
def number? (cs : List Char) : Option Nat :=
  let digits (base : Nat) (ds : List Char) : Option Nat := ds.foldlM (fun n d =>
    match Hex.digit? d with
    | some v => if v < base then some (base * n + v) else none
    | none => none) 0
  match cs with
  | [] => none
  | '0' :: 'x' :: r => digits 16 r
  | '0' :: 'X' :: r => digits 16 r
  | '0' :: r => digits 8 r
  | cs => digits 10 cs

def withoutLastEmpty (parts : List (List Char)) : List (List Char) :=
  if 1 < parts.length ∧ parts.getLast? = some [] then parts.dropLast else parts

/-- whether a host has to be an internet address of version 4 -/
def endsInNumber (host : List Char) : Bool :=
  match (withoutLastEmpty (splitAll (· == '.') host)).getLast? with
  | some last => !last.isEmpty && (last.all Char.isDigit || (number? last).isSome)
  | none => false

def isVersion4 (host : List Char) : Bool :=
  let parts := withoutLastEmpty (splitAll (· == '.') host)
  match parts.mapM number? with
  | none => false
  | some ns =>
    match ns.reverse with
    | last :: rest => ns.length ≤ 4 && rest.all (· ≤ 255) && last < Nat.pow 256 (5 - ns.length)
    | [] => false

/-- whether a part is a group of an internet address of version 6 -/
def isGroup (cs : List Char) : Bool := !cs.isEmpty && cs.length ≤ 4 && cs.all Hex.isDigit

/-- whether a part is an internet address of version 4 with four plain numbers -/
def isDotted (cs : List Char) : Bool :=
  let parts := splitAll (· == '.') cs
  parts.length == 4 && parts.all fun p =>
    !p.isEmpty && p.length ≤ 3 && p.all Char.isDigit && (p.length == 1 || p.head? != some '0') &&
      p.foldl (fun n d => 10 * n + (d.toNat - 48)) 0 ≤ 255

/-- how many groups colons separate, if all are well formed; the last may be a dotted address where `dotted` -/
def groups? (dotted : Bool) (cs : List Char) : Option Nat :=
  if cs.isEmpty then some 0
  else
    let parts := splitAll (· == ':') cs
    match parts.getLast? with
    | some last =>
      if dotted && isDotted last && parts.dropLast.all isGroup then some (parts.length + 1)
      else if parts.all isGroup then some parts.length
      else none
    | none => none

/-- splits at the first pair of colons -/
def splitPair : List Char → Option (List Char × List Char)
  | ':' :: ':' :: r => some ([], r)
  | c :: r => (splitPair r).map fun (a, b) => (c :: a, b)
  | [] => none

def isVersion6 (cs : List Char) : Bool :=
  match splitPair cs with
  | none => groups? true cs == some 8
  | some (a, b) =>
    match groups? false a, groups? true b with
    | some m, some n => m + n ≤ 7
    | _, _ => false

def isHost (host : List Char) : Bool :=
  match host with
  | '[' :: r => r.getLast? == some ']' && isVersion6 r.dropLast
  | host =>
    let name := unescape host
    !name.isEmpty && !name.any isForbidden && (!endsInNumber name || isVersion4 name)

/-- whether a text names a server that can be tried -/
def isUsable (url : String) : Bool :=
  match unscheme? (clean url.toList) with
  | none => false
  | some r =>
    let (host, service) := splitService (authority r)
    isHost host && isService service

end ChainBridge.Rpc.Url
