/-
Menus of commands, and what a line of arguments chooses from them.

A menu has places for arguments, options of its own and perhaps further menus below it; general options can be given in
any menu. Arguments are read from left to right: an option with or without a value, the name of a menu below, or an
argument for the next place. Behind two dashes nothing is an option any more. The first argument that does not fit ends
the reading, and so does a wish for help that comes earlier. An option may be given once in each menu, and the one that
is given last counts.
-/
import ChainBridge.Address

namespace ChainBridge.CommandLine

/-- what an argument has to be -/
inductive Kind where
  | text
  | address
deriving DecidableEq, Repr

def Kind.accepts (arg : String) : Kind → Bool
  | .text => true
  | .address => (Address.parse arg).isOk

/-- a place for an argument, its name on help pages, and what it is for -/
structure Place where
  name : String
  kind : Kind
  about : String
deriving DecidableEq, Repr

/-- an option; only one that takes a value may have a letter -/
structure Choice where
  name : String
  letter : Option Char
  /-- what the value has to be, if there is one -/
  value : Option Kind
  about : String
deriving DecidableEq, Repr

structure Menu where
  name : String
  about : String
  places : List Place
  choices : List Choice
  menus : List Menu

/-- what has been chosen: the menus on the way, the arguments, and the options with their values, the last one first -/
structure Selection where
  path : List String
  arguments : List String
  options : List (String × String)
deriving DecidableEq, Repr

namespace Selection

def empty : Selection := ⟨[], [], []⟩

def value? (s : Selection) (name : String) : Option String := s.options.lookup name

def has (s : Selection) (name : String) : Bool := (s.value? name).isSome

end Selection

inductive Chosen where
  | selection (s : Selection)
  /-- a help page was asked for -/
  | help (page : List String)
  | refused (reason : String)

/-! ## Help pages -/

/-- fills a text with blanks up to a width -/
def pad (width : Nat) (s : String) : String := s ++ "".pushn ' ' (width - s.length)

/-- lines in two columns -/
def columns (rows : List (String × String)) : List String :=
  let width := (rows.map fun r => r.1.length).foldl max 0
  rows.map fun r => "  " ++ pad width r.1 ++ "  " ++ r.2

/-- a part of a help page, left out if it has no rows -/
def helpPart (title : String) (rows : List (String × String)) : List String :=
  if rows.isEmpty then [] else "" :: title :: columns rows

namespace Choice

/-- how an option is written -/
def shown (c : Choice) : String :=
  let letter := match c.letter with
    | some l => "-" ++ l.toString ++ ", "
    | none => "    "
  let value := if c.value.isSome then " <" ++ c.name.toUpper ++ ">" else ""
  letter ++ "--" ++ c.name ++ value

/-- options are listed by their rank, and those of one rank by their letters and names -/
def key (c : Choice) : String :=
  match c.letter with
  | some l => l.toString ++ "0"
  | none => c.name

end Choice

/-- inserts an option with its rank where it belongs -/
def insertRanked (c : Nat × Choice) : List (Nat × Choice) → List (Nat × Choice)
  | [] => [c]
  | d :: rest =>
    if c.1 < d.1 ∨ (c.1 = d.1 ∧ c.2.key ≤ d.2.key) then c :: d :: rest else d :: insertRanked c rest

/-- the options of a menu and the general ones, each ranked by where it stands among its own -/
def ranked (own general : List Choice) : List Choice :=
  let all := (List.range own.length).zip own ++ (List.range general.length).zip general
  (all.foldr insertRanked []).map (·.2)

def helpWords : String := "Print this message or the help of the given subcommand(s)"

namespace Menu

/-- the help page of a menu at the end of a path -/
def page (m : Menu) (path : List String) (general : List Choice) : List String :=
  let options := (ranked m.choices general).map fun c => (c.shown, c.about)
  let arguments := m.places.map fun p => "<" ++ p.name ++ ">"
  let command := if m.menus.isEmpty then [] else ["<COMMAND>"]
  let menus := if m.menus.isEmpty then [] else m.menus.map (fun b => (b.name, b.about)) ++ [("help", helpWords)]
  [m.about, "", "Usage: " ++ " ".intercalate (path ++ ["[OPTIONS]"] ++ arguments ++ command)] ++
    helpPart "Commands:" menus ++ helpPart "Arguments:" (arguments.zip (m.places.map (·.about))) ++
    helpPart "Options:" (options ++ [("-h, --help", "Print help")])

/-- the help page of the command that shows help pages -/
def pageOfHelp (path : List String) : List String :=
  [helpWords, "", "Usage: " ++ " ".intercalate (path ++ ["help", "[COMMAND]..."])] ++
    helpPart "Arguments:" [("[COMMAND]...", "Print help for the subcommand(s)")]

def inner? (m : Menu) (name : String) : Option Menu := m.menus.find? fun b => b.name == name

/-- the help page that names lead to -/
def lookUp (general : List Choice) (m : Menu) (path : List String) : List String → Chosen
  | [] => .help (m.page path general)
  | name :: rest =>
    match m.inner? name with
    | some inner => lookUp general inner (path ++ [name]) rest
    | none =>
      if name = "help" ∧ !m.menus.isEmpty ∧ rest = [] then .help (pageOfHelp path)
      else .refused ("unrecognized subcommand '" ++ name ++ "'")

/-! ## Reading -/

/-- what an argument looks like, before it is known what it is for -/
inductive Look where
  | word
  /-- two dashes -/
  | stop
  | help
  | option (c : Choice) (attached : Option String)
  | unknown

/-- the part of an argument behind an equals sign, if there is one -/
def attached? (cs : List Char) : Option String :=
  match cs.dropWhile (· != '=') with
  | _ :: value => some (String.ofList value)
  | [] => none

def lookOf (choices : List Choice) (arg : String) : Look :=
  match arg.toList with
  | ['-', '-'] => .stop
  | '-' :: '-' :: cs =>
    let name := String.ofList (cs.takeWhile (· != '='))
    match choices.find? fun c => c.name == name with
    | some c => .option c (attached? cs)
    | none => if cs = ['h', 'e', 'l', 'p'] then .help else .unknown
  | '-' :: 'h' :: _ => .help
  | '-' :: letter :: cs =>
    match choices.find? fun c => c.letter == some letter with
    | some c => .option c (match cs with
      | [] => none
      | '=' :: value => some (String.ofList value)
      | value => some (String.ofList value))
    | none => .unknown
  | _ => .word

/-- whether an argument can not be the value of the option before it -/
def isDashed (arg : String) : Bool :=
  match arg.toList with
  | '-' :: _ :: _ => true
  | _ => false

def unexpected (arg : String) : Chosen := .refused ("unexpected argument '" ++ arg ++ "' found")

def invalid (arg : String) : Chosen := .refused ("invalid value '" ++ arg ++ "'")

/-- puts an argument in the next place -/
def enter (m : Menu) (s : Selection) (arg : String) : Except Chosen Selection :=
  match m.places[s.arguments.length]? with
  | some place =>
    if place.kind.accepts arg then .ok { s with arguments := s.arguments ++ [arg] } else .error (invalid arg)
  | none => .error (unexpected arg)

/-- what has been chosen when nothing follows -/
def conclude (m : Menu) (s : Selection) : Chosen :=
  if !m.menus.isEmpty then .refused "a subcommand is required"
  else if s.arguments.length < m.places.length then .refused "a required argument was not provided"
  else .selection s

/-- arguments among which there are no options -/
def readPlain (m : Menu) (s : Selection) : List String → Chosen
  | [] => m.conclude s
  | arg :: rest =>
    match m.enter s arg with
    | .ok s => readPlain m s rest
    | .error refusal => refusal

/-- reads what a menu is chosen with; `given` are the options of this menu so far -/
def read (program : String) (general : List Choice) (m : Menu) (given : List String) (s : Selection) :
    List String → Chosen
  | [] => m.conclude s
  | arg :: rest =>
    match m.inner? arg with
    | some inner => read program general inner [] { s with path := s.path ++ [arg] } rest
    | none =>
      if arg = "help" ∧ !m.menus.isEmpty then m.lookUp general (program :: s.path) rest
      else
        match lookOf (m.choices ++ general) arg with
        | .stop => m.readPlain s rest
        | .help => .help (m.page (program :: s.path) general)
        | .unknown => unexpected arg
        | .word =>
          match m.enter s arg with
          | .ok s => read program general m given s rest
          | .error refusal => refusal
        | .option c attached =>
          let choose (value : String) : Selection := { s with options := (c.name, value) :: s.options }
          if given.contains c.name then .refused ("the argument '--" ++ c.name ++ "' cannot be used multiple times")
          else
            match c.value, attached with
            | none, none => read program general m (c.name :: given) (choose "") rest
            | none, some value => unexpected value
            | some kind, some value =>
              if kind.accepts value then read program general m (c.name :: given) (choose value) rest else invalid value
            | some kind, none =>
              match rest with
              | [] => .refused ("a value is required for '--" ++ c.name ++ "'")
              | value :: rest =>
                if isDashed value then .refused ("a value is required for '--" ++ c.name ++ "'")
                else if kind.accepts value then read program general m (c.name :: given) (choose value) rest
                else invalid value

end Menu

/-- what arguments choose from a menu -/
def choose (m : Menu) (general : List Choice) (args : List String) : Chosen := m.read m.name general [] .empty args

end ChainBridge.CommandLine
