/-
The commands of the program, and how they are given as arguments.
-/
import ChainBridge.CommandLine.Menu
import ChainBridge.Config.Layers

namespace ChainBridge.CommandLine

/-- a question to the node -/
inductive Question where
  | balance (account : Address)
  | nonce (account : Address)
  /-- a token, and what an owner has of it -/
  | token (token : Address) (owner : Option Address)
  | allowance (token owner : Address) (spender : Option Address)
  | defi
deriving DecidableEq, Repr

inductive Command where
  | ask (question : Question)
  | validate (file : String)
  | display (file : String)
  | generate (output : String) (force : Bool)
deriving DecidableEq, Repr

structure Invocation where
  command : Command
  /-- where the configuration is, if that is said -/
  config : Option String
  /-- whether to report on the cache -/
  stats : Bool
  /-- whether to print counters and gauges -/
  metrics : Bool
deriving DecidableEq, Repr

/-! ## Menus -/

def general : List Choice := [
  ⟨"config", some 'c', some .text, "Path to config file (defaults to $MOTIF_CONFIG or config/config.toml)"⟩,
  ⟨"stats", none, none, "Print cache statistics to stderr after the query"⟩,
  ⟨"metrics", none, none, "Install the Prometheus recorder and print the exposition after the query"⟩]

def withDefault (about default : String) : String := about ++ " [default: " ++ default ++ "]"

def fileChoice : Choice := ⟨"file", some 'f', some .text, withDefault "Path to config file" Config.defaultPath⟩

def configMenu : Menu where
  name := "config"
  about := "Configuration Management"
  places := []
  choices := []
  menus := [
    ⟨"validate", "Validate a configuration file", [], [fileChoice], []⟩,
    ⟨"show", "Show the effective configuration (defaults, file and MOTIF__* overrides)", [], [fileChoice], []⟩,
    ⟨"generate", "Generate a sample configuration file", [], [
      ⟨"output", some 'o', some .text, withDefault "Output path for the config file" Config.defaultPath⟩,
      ⟨"force", none, none, "Overwrite existing file"⟩], []⟩]

def menu : Menu where
  name := "motif-cli"
  about := "Motif CLI - Query an Opera node through the cached bridge repository"
  places := []
  choices := []
  menus := [
    ⟨"balance", "Native balance of an account",
      [⟨"ADDRESS", .address, "Account address (0x-prefixed hex)"⟩], [], []⟩,
    ⟨"nonce", "Transaction count (nonce) of an account",
      [⟨"ADDRESS", .address, "Account address (0x-prefixed hex)"⟩], [], []⟩,
    ⟨"token", "Probe an ERC20 token and show its supply and logo",
      [⟨"ADDRESS", .address, "Token contract address"⟩],
      [⟨"owner", none, some .address, "Also report the balance held by this owner"⟩], []⟩,
    ⟨"allowance", "ERC20 allowance granted by an owner",
      [⟨"TOKEN", .address, "Token contract address"⟩, ⟨"OWNER", .address, "Owner of the tokens"⟩],
      [⟨"spender", none, some .address, "Spender; defaults to the configured fMint contract"⟩], []⟩,
    ⟨"defi", "fMint DeFi settings", [], [], []⟩,
    configMenu]

/-! ## Commands -/

def address? (s : String) : Option Address := (Address.parse s).toOption

/-- the command that a selection is -/
def commandOf? (s : Selection) : Option Command :=
  let owner := (s.value? "owner").bind address?
  let spender := (s.value? "spender").bind address?
  let file := (s.value? "file").getD Config.defaultPath
  match s.path, s.arguments.mapM address? with
  | ["balance"], some [account] => some (.ask (.balance account))
  | ["nonce"], some [account] => some (.ask (.nonce account))
  | ["token"], some [token] => some (.ask (.token token owner))
  | ["allowance"], some [token, holder] => some (.ask (.allowance token holder spender))
  | ["defi"], some [] => some (.ask .defi)
  | ["config", "validate"], some [] => some (.validate file)
  | ["config", "show"], some [] => some (.display file)
  | ["config", "generate"], some [] =>
    some (.generate ((s.value? "output").getD Config.defaultPath) (s.has "force"))
  | _, _ => none

def invocationOf? (s : Selection) : Option Invocation :=
  (commandOf? s).map fun command => ⟨command, s.value? "config", s.has "stats", s.has "metrics"⟩

end ChainBridge.CommandLine
