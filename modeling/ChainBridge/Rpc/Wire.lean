/-
HTTP, as far as one exchange with a node needs it: the bytes of a request, and what the bytes that come back deliver.

Every exchange has a connection of its own, which is closed behind the answer. A body has the length that the answer
states, or comes in chunks, or goes on to the end of the connection. An answer that only announces another one is passed
over.
-/
import ChainBridge.Rpc.Exchange

namespace ChainBridge.Rpc.Wire

open Text

/-! ## Servers -/

/-- where a URL leads -/
structure Server where
  secure : Bool
  host : String
  /-- the number of the service on the host -/
  service : Nat
  /-- path and query -/
  target : String
deriving DecidableEq, Repr

def decimal (ds : List Char) : Nat := ds.foldl (fun n d => 10 * n + (d.toNat - '0'.toNat)) 0

/-- path and query behind a host, up to a fragment -/
def targetOf (cs : List Char) : String :=
  let rest := (cs.dropWhile Url.isSlash).dropWhile fun c => !(Url.isSlash c || c == '?' || c == '#')
  match rest.takeWhile (· != '#') with
  | [] => "/"
  | '?' :: query => String.ofList ('/' :: '?' :: query)
  | path => String.ofList path

def server? (url : String) : Option Server :=
  if Url.isUsable url then do
    let cs := Url.clean url.toList
    let secure := Url.lower (cs.takeWhile (· != ':')) == ['h', 't', 't', 'p', 's']
    let rest ← Url.unscheme? cs
    let (host, service) := Url.splitService (Url.authority rest)
    let usual := if secure then 443 else 80
    some ⟨secure, String.ofList (Url.unescape host), if service.isEmpty then usual else decimal service, targetOf rest⟩
  else none

/-! ## Requests -/

def lineBreak : String := "\r\n"

/-- how the program calls itself -/
def agent : String := "motif/0.1.0"

/-- the bytes of a request with a body -/
def request (s : Server) (body : String) : List UInt8 :=
  let length := (Utf8.encode body.toList).length
  let lines := [
    "POST " ++ s.target ++ " HTTP/1.1",
    "content-type: application/json",
    "user-agent: " ++ agent,
    "accept: */*",
    "host: " ++ s.host ++ ":" ++ toString s.service,
    "content-length: " ++ toString length,
    "connection: close",
    "",
    body]
  Utf8.encode (lineBreak.intercalate lines).toList

/-! ## Answers -/

/-- the bytes before the first line break, and those behind it -/
def splitLine : List UInt8 → Option (List UInt8 × List UInt8)
  | 13 :: 10 :: r => some ([], r)
  | b :: r => (splitLine r).map fun (line, rest) => (b :: line, rest)
  | [] => none

/-- the lines before the first empty line, and the bytes behind it; every line has at least two bytes -/
def splitHead : Nat → List UInt8 → Option (List (List Char) × List UInt8)
  | 0, _ => none
  | room + 1, bytes => do
    let (line, rest) ← splitLine bytes
    if line = [] then return ([], rest)
    let (lines, rest) ← splitHead room rest
    return (line.map (fun b => Char.ofNat b.toNat) :: lines, rest)

/-- the status in the first line of an answer -/
def statusOf? (line : List Char) : Option UInt16 :=
  match line with
  | 'H' :: 'T' :: 'T' :: 'P' :: '/' :: '1' :: '.' :: _ :: ' ' :: a :: b :: c :: rest =>
    if [a, b, c].all Char.isDigit ∧ (rest = [] ∨ rest.head? = some ' ') then some (UInt16.ofNat (decimal [a, b, c]))
    else none
  | _ => none

/-- a field of an answer, by its name in lower case -/
def fieldOf? (name : String) (lines : List (List Char)) : Option (List Char) :=
  lines.findSome? fun line =>
    if Url.lower (line.takeWhile (· != ':')) == name.toList then
      some ((((line.dropWhile (· != ':')).drop 1).dropWhile (· == ' ')).reverse.dropWhile (· == ' ')).reverse
    else none

/-- where a body ends -/
inductive Framing where
  | length (n : Nat)
  | chunks
  /-- with the connection -/
  | connection
deriving DecidableEq, Repr

def framingOf (lines : List (List Char)) : Framing :=
  match fieldOf? "transfer-encoding" lines, fieldOf? "content-length" lines with
  | some coding, length =>
    if Url.lower coding == "chunked".toList then .chunks
    else (length.map fun ds => .length (decimal ds)).getD .connection
  | none, some ds => if ds.all Char.isDigit then .length (decimal ds) else .connection
  | none, none => .connection

/-- puts chunks together; every chunk has at least two bytes -/
def joinChunks : Nat → List UInt8 → Option (List UInt8)
  | 0, _ => none
  | room + 1, bytes => do
    let (line, rest) ← splitLine bytes
    let digits := (line.map fun b => Char.ofNat b.toNat).takeWhile Hex.isDigit
    let n := Hex.value digits
    if digits = [] then none
    else if n = 0 then some []
    else if rest.length < n + 2 then none
    else return rest.take n ++ (← joinChunks room (rest.drop (n + 2)))

/-- the body behind the head of an answer, if it is complete; `closed` is whether nothing more will come -/
def bodyOf? (status : UInt16) (lines : List (List Char)) (closed : Bool) (bytes : List UInt8) : Option (List UInt8) :=
  if status = 204 ∨ status = 304 then some []
  else
    match framingOf lines with
    | .length n => if n ≤ bytes.length then some (bytes.take n) else none
    | .chunks => joinChunks (bytes.length + 1) bytes
    | .connection => if closed then some bytes else none

/-- why no more bytes come -/
inductive End where
  | closed
  | outOfTime
  /-- more bytes may come -/
  | never
deriving DecidableEq, Repr

/-- what the bytes so far deliver, if that is known -/
def delivery? (ending : End) : Nat → List UInt8 → Option Delivery
  | 0, _ => none
  | room + 1, bytes =>
    match splitHead (bytes.length + 1) bytes with
    | none =>
      match ending with
      | .closed => some .closed
      | .outOfTime => some .timedOut
      | .never => none
    | some ([], _) => some .closed
    | some (first :: lines, rest) =>
      match statusOf? first with
      | none => some .closed
      | some status =>
        if status < 200 then delivery? ending room rest
        else
          match bodyOf? status lines (ending = .closed) rest, ending with
          | some body, _ => some (.answered status body)
          | none, .closed => some (.broken status false)
          | none, .outOfTime => some (.broken status true)
          | none, .never => none

/-- what bytes deliver, when nothing more will come -/
def delivery (outOfTime : Bool) (bytes : List UInt8) : Delivery :=
  (delivery? (if outOfTime then .outOfTime else .closed) (bytes.length + 1) bytes).getD .closed

/-- whether bytes deliver an answer already -/
def isComplete (bytes : List UInt8) : Bool := (delivery? .never (bytes.length + 1) bytes).isSome

end ChainBridge.Rpc.Wire
