/-
Putting a bridge together from its configuration.

The configuration is validated first. A bridge that makes its own link to the node also needs permits for its requests;
with a link that is handed in it does not. What a bridge consists of follows from the configuration alone.
-/
import ChainBridge.Config.Validate
import ChainBridge.Rpc.Permits

namespace ChainBridge.Bridge

inductive Error where
  | noConfiguration
  | configuration (fault : Config.Fault)
  | transport (e : Rpc.Error)
  | cache (e : Cache.Error)
  /-- more permits than a pool can have -/
  | tooManyPermits (limit : Nat)
deriving DecidableEq, Repr

/-- what is wrong, without saying with what -/
def Error.reason : Error → String
  | .noConfiguration => "No configuration provided"
  | .configuration fault => fault.message
  | .transport e => e.message
  | .cache e => e.message
  | .tooManyPermits _ => "a semaphore may not have more than MAX_PERMITS permits (2305843009213693951)"

def Error.message : Error → String
  | .noConfiguration => "Configuration validation failed: No configuration provided"
  | .configuration fault => "Configuration validation failed: " ++ fault.message
  | .transport e => "Failed to initialize node transport: " ++ e.message
  | .cache e => "Failed to initialize cache: " ++ e.message
  | .tooManyPermits limit => Error.reason (.tooManyPermits limit)

/-- how an error is shown -/
def Error.debug : Error → String
  | .noConfiguration => "ConfigValidation(\"No configuration provided\")"
  | .configuration fault => "ConfigValidation(" ++ Text.Quoted.text fault.message ++ ")"
  | .transport e => "Transport(" ++ e.debug ++ ")"
  | .cache e => "Cache(" ++ e.debug ++ ")"
  | .tooManyPermits limit => "TooManyPermits(" ++ toString limit ++ ")"

/-- where requests go -/
inductive Link where
  /-- to a link that is handed in -/
  | given
  /-- over HTTP to the configured address, unless some fault keeps a client from being made -/
  | http (fault : Option Rpc.Error)
deriving DecidableEq, Repr

/-- what a link needs before it can be used: over HTTP a client, and a pool of permits for its requests -/
def Link.prepare (link : Link) (limit : Nat) : Except Error Unit :=
  match link with
  | .given => .ok ()
  | .http (some e) => .error (.transport e)
  | .http none => if (Rpc.Permits.size? limit).isNone then .error (.tooManyPermits limit) else .ok ()

/-- the repository of a bridge and what else there is to it -/
structure Blueprint extends Repository.Setting where
  /-- whether expired answers are swept out -/
  sweeps : Bool
deriving DecidableEq, Repr

/-- the name under which the repository's cache is counted -/
def cacheName : String := "repository"

/-- the parts that a configuration asks for; `sweeping` is whether there may be sweeps at all -/
def Blueprint.of (c : Config) (options : Repository.Options) (sweeping : Bool) : Blueprint :=
  ⟨⟨c.node.methodNamespace, ⟨cacheName, c.cache.policy⟩, options⟩, sweeping && c.cache.policy.sweepInterval ≠ 0⟩

/-- the parts of a bridge -/
def build (config : Option Config) (link : Link) (sweeping : Bool) : Except Error Blueprint :=
  match config with
  | none => .error .noConfiguration
  | some c => do
    c.validate.mapError .configuration
    link.prepare c.node.concurrentLimit.toNat
    c.cache.policy.validate.mapError .cache
    let options ← c.options.mapError .configuration
    return Blueprint.of c options sweeping

end ChainBridge.Bridge
