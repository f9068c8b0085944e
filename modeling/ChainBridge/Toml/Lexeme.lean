/-
The smallest parts of a TOML document: blanks, comments, texts, keys and scalars.

A text stands in double quotes, with escapes, or in single quotes, as it is; three quotes of either kind hold lines. A
scalar that is not a text is a run of letters, digits and a few signs, and is read as a whole: a truth value, an integer
of 64 bits, a floating-point number, or a date, a time or both. A date with a time is kept as its text in normal form.
-/
import ChainBridge.Json.Basic
import ChainBridge.Text.Hex

namespace ChainBridge.Toml

/-! ## Blanks and comments -/

def isBlank (c : Char) : Bool := c == ' ' || c == '\t'

def skipBlank : List Char → List Char
  | [] => []
  | c :: r => if isBlank c then skipBlank r else c :: r

/-- a character that texts and comments may hold as it is -/
def isPlain (c : Char) : Bool := c == '\t' || (0x20 ≤ c.toNat && c.toNat != 0x7F)

/-- what follows a line break -/
def breakLine? : List Char → Option (List Char)
  | '\n' :: r => some r
  | '\r' :: '\n' :: r => some r
  | _ => none

/-- what follows a comment, if there is one, up to the line break -/
def skipComment : List Char → List Char
  | '#' :: r => r.dropWhile isPlain
  | r => r

/-- what follows the end of a line that has nothing more to say; the end of the document ends a line too -/
def endLine? (cs : List Char) : Option (List Char) :=
  match skipComment (skipBlank cs) with
  | [] => some []
  | r => breakLine? r

/-- what follows blanks, comments and line breaks; every round ends a line -/
def skipLines : Nat → List Char → Option (List Char)
  | 0, _ => none
  | fuel + 1, cs =>
    match skipBlank cs with
    | '#' :: r =>
      match breakLine? (r.dropWhile isPlain) with
      | some r => skipLines fuel r
      | none => none
    | r =>
      match breakLine? r with
      | some r => skipLines fuel r
      | none => some r

/-! ## Texts -/

/-- the character of a code point in hexadecimal digits -/
def codePoint? (ds : List Char) : Option Char := do
  let n ← ds.foldlM (fun n d => (Text.Hex.digit? d).map fun v => 16 * n + v) 0
  if h : n.isValidChar then some (Char.ofNatAux n h) else none

/-- what a one-letter escape stands for -/
def escaped? (c : Char) : Option Char :=
  if c = '"' ∨ c = '\\' then some c
  else if c = 'b' then some '\x08'
  else if c = 'f' then some '\x0c'
  else if c = 'n' then some '\n'
  else if c = 'r' then some '\r'
  else if c = 't' then some '\t'
  else none

/-- puts a character in front of what is read -/
def push (c : Char) (r : Option (List Char × List Char)) : Option (List Char × List Char) :=
  r.map fun (cs, rest) => (c :: cs, rest)

/-- reads a text of one line behind its double quote -/
def readBasic : List Char → Option (List Char × List Char)
  | [] => none
  | '"' :: r => some ([], r)
  | '\\' :: 'u' :: a :: b :: c :: d :: r => do push (← codePoint? [a, b, c, d]) (readBasic r)
  | '\\' :: 'U' :: a :: b :: c :: d :: e :: f :: g :: h :: r => do
    push (← codePoint? [a, b, c, d, e, f, g, h]) (readBasic r)
  | '\\' :: c :: r => do push (← escaped? c) (readBasic r)
  | c :: r => if isPlain c && c != '\\' then push c (readBasic r) else none

/-- reads a text of one line behind its single quote -/
def readLiteral : List Char → Option (List Char × List Char)
  | [] => none
  | '\'' :: r => some ([], r)
  | c :: r => if isPlain c then push c (readLiteral r) else none

/-- up to two quotes that belong to a text which ends in quotes -/
def spareQuotes (quote : Char) : List Char → List Char × List Char
  | a :: b :: r =>
    if a = quote ∧ b = quote then ([quote, quote], r) else if a = quote then ([quote], b :: r) else ([], a :: b :: r)
  | [a] => if a = quote then ([quote], []) else ([], [a])
  | [] => ([], [])

/-- whether nothing but blanks stands before the next line break -/
def endsLine (cs : List Char) : Bool := (breakLine? (skipBlank cs)).isSome

/-- reads a text of several lines behind its three double quotes; `skipping` is set behind a backslash at the end of a
line, where blanks and line breaks do not count -/
def readBasicLines (skipping : Bool) : List Char → Option (List Char × List Char)
  | [] => none
  | '"' :: '"' :: '"' :: r => some (spareQuotes '"' r)
  | '\r' :: '\n' :: r => if skipping then readBasicLines true r else push '\n' (readBasicLines false r)
  | '\n' :: r => if skipping then readBasicLines true r else push '\n' (readBasicLines false r)
  | '\\' :: 'u' :: a :: b :: c :: d :: r => do push (← codePoint? [a, b, c, d]) (readBasicLines false r)
  | '\\' :: 'U' :: a :: b :: c :: d :: e :: f :: g :: h :: r => do
    push (← codePoint? [a, b, c, d, e, f, g, h]) (readBasicLines false r)
  | '\\' :: c :: r =>
    match escaped? c with
    | some e => push e (readBasicLines false r)
    | none => if endsLine (c :: r) then readBasicLines true (c :: r) else none
  | c :: r =>
    if skipping && isBlank c then readBasicLines true r
    else if isPlain c && c != '\\' then push c (readBasicLines false r)
    else none

/-- reads a text of several lines behind its three single quotes -/
def readLiteralLines : List Char → Option (List Char × List Char)
  | [] => none
  | '\'' :: '\'' :: '\'' :: r => some (spareQuotes '\'' r)
  | '\r' :: '\n' :: r => push '\n' (readLiteralLines r)
  | '\n' :: r => push '\n' (readLiteralLines r)
  | c :: r => if isPlain c then push c (readLiteralLines r) else none

/-- what follows a line break right behind the opening quotes -/
def skipFirstBreak (cs : List Char) : List Char := (breakLine? cs).getD cs

/-- reads a text, if one starts here -/
def readText? : List Char → Option (Option (List Char × List Char))
  | '"' :: '"' :: '"' :: r => some (readBasicLines false (skipFirstBreak r))
  | '"' :: r => some (readBasic r)
  | '\'' :: '\'' :: '\'' :: r => some (readLiteralLines (skipFirstBreak r))
  | '\'' :: r => some (readLiteral r)
  | _ => none

/-! ## Keys -/

def isBare (c : Char) : Bool := c.isAlphanum || c == '_' || c == '-'

/-- reads one part of a key -/
def readKeyPart : List Char → Option (String × List Char)
  | '"' :: r => (readBasic r).map fun (cs, r) => (String.ofList cs, r)
  | '\'' :: r => (readLiteral r).map fun (cs, r) => (String.ofList cs, r)
  | cs =>
    match cs.takeWhile isBare with
    | [] => none
    | part => some (String.ofList part, cs.dropWhile isBare)

/-- how many parts a key may have, and how deeply values may be nested -/
def depthLimit : Nat := 80

/-- reads a key of parts between dots; the parts before the last, and the last -/
def readKey : Nat → List Char → Option ((List String × String) × List Char)
  | 0, _ => none
  | room + 1, cs => do
    let (part, r) ← readKeyPart (skipBlank cs)
    match skipBlank r with
    | '.' :: r =>
      let ((parts, last), r) ← readKey room r
      return ((part :: parts, last), r)
    | r => return (([], part), r)

/-! ## Numbers -/

def isToken (c : Char) : Bool := c.isAlphanum || c == '_' || c == '+' || c == '-' || c == '.' || c == ':'

/-- the digits of a run in which single underscores may stand between digits -/
def digits? (isDigit : Char → Bool) : List Char → Option (List Char)
  | [] => none
  | [c] => if isDigit c then some [c] else none
  | c :: '_' :: r => if isDigit c then (digits? isDigit r).map (c :: ·) else none
  | c :: r => if isDigit c then (digits? isDigit r).map (c :: ·) else none

/-- the digits of a decimal number without idle zeros in front -/
def whole? (cs : List Char) : Option (List Char) :=
  match cs with
  | ['0'] => some ['0']
  | '0' :: _ => none
  | cs => digits? Char.isDigit cs

def valueOf (base : Nat) (ds : List Char) : Nat := ds.foldl (fun n d => base * n + (Text.Hex.digit? d).getD 0) 0

/-- the sign of a number and what follows it -/
def unsign : List Char → Bool × List Char
  | '-' :: r => (true, r)
  | '+' :: r => (false, r)
  | r => (false, r)

def integer? (cs : List Char) : Option Int :=
  match cs with
  | '0' :: 'x' :: r => (digits? Text.Hex.isDigit r).bind fun ds => fit (valueOf 16 ds)
  | '0' :: 'o' :: r => (digits? (fun c => '0' ≤ c && c ≤ '7') r).bind fun ds => fit (valueOf 8 ds)
  | '0' :: 'b' :: r => (digits? (fun c => c == '0' || c == '1') r).bind fun ds => fit (valueOf 2 ds)
  | cs =>
    let (negative, r) := unsign cs
    (whole? r).bind fun ds => fit (if negative then -(valueOf 10 ds : Int) else valueOf 10 ds)
where
  fit (i : Int) : Option Int := if -0x8000000000000000 ≤ i ∧ i < 0x8000000000000000 then some i else none

/-- the double nearest to digits with the point at `point` -/
def nearest (ds : List Char) (point : Int) : Float :=
  let n := valueOf 10 ds
  let places : Int := ds.length - point
  if n = 0 then 0.0
  -- beyond these bounds every number is too large or too small
  else if 400 < point then 1.0 / 0.0
  else if point < -400 then 0.0
  else if places ≤ 0 then Float.ofScientific (n * Nat.pow 10 (-places).toNat) false 0
  else Float.ofScientific n true places.toNat

/-- the places of a fraction, if one starts here, and what follows them -/
def fraction? (cs : List Char) : Option (List Char × List Char) :=
  match cs with
  | '.' :: r => (digits? Char.isDigit (r.takeWhile fun c => c.isDigit || c == '_')).map
      (·, r.dropWhile fun c => c.isDigit || c == '_')
  | r => some ([], r)

def exponent? (cs : List Char) : Option Int :=
  let read (r : List Char) : Option Int :=
    let (negative, r) := unsign r
    (digits? Char.isDigit r).map fun ds => if negative then -(valueOf 10 ds : Int) else valueOf 10 ds
  match cs with
  | [] => some 0
  | 'e' :: r => read r
  | 'E' :: r => read r
  | _ => none

/-- a floating-point number; one that is too large above is refused, one that is too large below is infinite -/
def float? (cs : List Char) : Option UInt64 := do
  let (negative, r) := unsign cs
  let sign (x : Float) : UInt64 := (if negative then -x else x).toBits
  if r = ['i', 'n', 'f'] then return sign (1.0 / 0.0)
  if r = ['n', 'a', 'n'] then return 0x7FF8000000000000
  let whole ← whole? (r.takeWhile fun c => c.isDigit || c == '_')
  let (places, rest) ← fraction? (r.dropWhile fun c => c.isDigit || c == '_')
  if places.isEmpty ∧ rest.isEmpty then none
  let exponent ← exponent? rest
  let x := nearest (whole ++ places) (whole.length + exponent)
  if x.isInf ∧ !negative then none else some (sign x)

/-! ## Dates and times -/

/-- the number of so many digits, and what follows them -/
def number? (count : Nat) (cs : List Char) : Option (Nat × List Char) :=
  let ds := cs.take count
  if ds.length = count ∧ ds.all Char.isDigit then some (valueOf 10 ds, cs.drop count) else none

def expect? (c : Char) : List Char → Option (List Char)
  | d :: r => if c = d then some r else none
  | [] => none

def isLeap (year : Nat) : Bool := year % 4 == 0 && (year % 100 != 0 || year % 400 == 0)

def daysIn (year month : Nat) : Nat :=
  if month = 2 then (if isLeap year then 29 else 28)
  else if [4, 6, 9, 11].contains month then 30
  else 31

/-- a date, and what follows it -/
def date? (cs : List Char) : Option (List Char × List Char) := do
  let (year, r) ← number? 4 cs
  let (month, r) ← number? 2 (← expect? '-' r)
  let (day, r) ← number? 2 (← expect? '-' r)
  if 1 ≤ month ∧ month ≤ 12 ∧ 1 ≤ day ∧ day ≤ daysIn year month then some (cs.take 10, r) else none

/-- parts of a second, to nine places and without idle zeros at the end, and what follows them -/
def seconds? (cs : List Char) : Option (List Char × List Char) :=
  match cs with
  | '.' :: r =>
    match r.takeWhile Char.isDigit with
    | [] => none
    | ds =>
      let kept := ((ds.take 9).reverse.dropWhile (· == '0')).reverse
      some (if kept.isEmpty then [] else '.' :: kept, r.dropWhile Char.isDigit)
  | r => some ([], r)

/-- a time, and what follows it -/
def time? (cs : List Char) : Option (List Char × List Char) := do
  let (hour, r) ← number? 2 cs
  let (minute, r) ← number? 2 (← expect? ':' r)
  let (second, r) ← number? 2 (← expect? ':' r)
  let (places, r) ← seconds? r
  if hour ≤ 23 ∧ minute ≤ 59 ∧ second ≤ 60 then some (cs.take 8 ++ places, r) else none

/-- how far a time is from universal time -/
def offset? (cs : List Char) : Option (List Char) :=
  match cs with
  | [] => some []
  | ['Z'] => some ['Z']
  | ['z'] => some ['Z']
  | sign :: r => do
    let (hours, r) ← number? 2 r
    let (minutes, r) ← number? 2 (← expect? ':' r)
    let sign ← if sign = '+' then some '+' else if sign = '-' then some (if hours = 0 ∧ minutes = 0 then '+' else '-')
      else none
    if r.isEmpty ∧ hours ≤ 23 ∧ minutes ≤ 59 then some (sign :: cs.drop 1) else none

/-- a date, a time or both -/
def moment? (cs : List Char) : Option (List Char) :=
  match date? cs with
  | some (date, []) => some date
  | some (date, mark :: r) =>
    if mark = 'T' ∨ mark = 't' ∨ mark = ' ' then do
      let (time, r) ← time? r
      return date ++ 'T' :: time ++ (← offset? r)
    else none
  | none =>
    match time? cs with
    | some (time, []) => some time
    | _ => none

/-! ## Scalars -/

/-- the characters of a scalar; a date takes in the time behind a blank -/
def token (cs : List Char) : List Char × List Char :=
  let first := cs.takeWhile isToken
  let rest := cs.dropWhile isToken
  match date? first, rest with
  | some (_, []), ' ' :: d :: r =>
    if d.isDigit then (first ++ ' ' :: (d :: r).takeWhile isToken, (d :: r).dropWhile isToken) else (first, rest)
  | _, _ => (first, rest)

def scalar? (cs : List Char) : Option Json :=
  if cs = ['t', 'r', 'u', 'e'] then some (.bool true)
  else if cs = ['f', 'a', 'l', 's', 'e'] then some (.bool false)
  else
    match integer? cs, float? cs, moment? cs with
    | some i, _, _ => some (.integer i)
    | none, some x, _ => some (.float x)
    | none, none, some m => some (.text (String.ofList m))
    | none, none, none => none

end ChainBridge.Toml
