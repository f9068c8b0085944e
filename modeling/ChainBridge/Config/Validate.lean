/-
What a configuration must be like, and the typed inputs that it resolves to.

Rules are checked in a fixed order and the first one broken is the fault: the address of the node, its timeout, its
limit and its namespace; how long cached answers live and how many may be kept; the seven contract addresses; the
tokens with logos; the form of the log. Every text that validation accepts as an address resolves.
-/
import ChainBridge.Config.Basic
import ChainBridge.Repository.Operation

namespace ChainBridge.Config

inductive Fault where
  | nodeUrl (url : String)
  | nodeTimeout
  | concurrentLimit
  | methodNamespace
  | cacheTtl
  | cacheSize
  | defiAddress (field value : String) (fault : AddressFault)
  | logoAddress (token : String) (fault : AddressFault)
  | loggingFormat
deriving DecidableEq, Repr

def Fault.message : Fault → String
  | .nodeUrl url => "Invalid node URL: " ++ url
  | .nodeTimeout => "Node timeout must be greater than 0"
  | .concurrentLimit => "Node concurrent limit must be greater than 0"
  | .methodNamespace => "Node method namespace must not be empty"
  | .cacheTtl => "Cache TTL must be greater than 0"
  | .cacheSize => "Cache max size must be greater than 0"
  | .defiAddress field value fault => "Invalid defi." ++ field ++ " address " ++ value ++ ": " ++ fault.message
  | .logoAddress token fault => "Invalid token logo address " ++ token ++ ": " ++ fault.message
  | .loggingFormat => "Logging format must be 'json' or 'pretty'"

/-! ## Addresses -/

/-- reads the address in a field of the lending section -/
def defiAddress (field value : String) : Except Fault Address :=
  match Address.parse value with
  | .ok a => .ok a
  | .error fault => .error (.defiAddress field value fault)

def Defi.resolve (d : Defi) : Except Fault ChainBridge.Defi.Addresses := do
  let fmintContract ← defiAddress "fmint_contract" d.fmintContract
  let fmintAddressProvider ← defiAddress "fmint_address_provider" d.fmintAddressProvider
  let fmintTokenRegistry ← defiAddress "fmint_token_registry" d.fmintTokenRegistry
  let fmintRewardDistribution ← defiAddress "fmint_reward_distribution" d.fmintRewardDistribution
  let fmintCollateralPool ← defiAddress "fmint_collateral_pool" d.fmintCollateralPool
  let fmintDebtPool ← defiAddress "fmint_debt_pool" d.fmintDebtPool
  let priceOracleAggregate ← defiAddress "price_oracle_aggregate" d.priceOracleAggregate
  return { fmintContract, fmintAddressProvider, fmintTokenRegistry, fmintRewardDistribution, fmintCollateralPool,
           fmintDebtPool, priceOracleAggregate }

/-- the table of logos; of several texts that name one token the last one counts -/
def resolveLogos (table : List (Address × String)) : List (String × String) → Except Fault (List (Address × String))
  | [] => .ok table
  | (token, url) :: rest =>
    match Address.parse token with
    | .error fault => .error (.logoAddress token fault)
    | .ok a => resolveLogos (Repository.Logos.enter table a url) rest

def Tokens.resolve (t : Tokens) : Except Fault Repository.Logos :=
  (resolveLogos [] t.logos).map fun table => ⟨table, t.defaultLogo⟩

/-- what the repository is told -/
def options (c : Config) : Except Fault Repository.Options := do
  let defi ← c.defi.resolve
  let logos ← c.tokens.resolve
  return ⟨defi, logos, none⟩

/-! ## Validation -/

/-- whether a text starts like the address of a web server -/
def looksLikeUrl (url : String) : Bool :=
  "http://".toList.isPrefixOf url.toList || "https://".toList.isPrefixOf url.toList

def validate (c : Config) : Except Fault Unit :=
  if !looksLikeUrl c.node.url then .error (.nodeUrl c.node.url)
  else if c.node.timeoutSeconds = 0 then .error .nodeTimeout
  else if c.node.concurrentLimit = 0 then .error .concurrentLimit
  else if c.node.methodNamespace = "" then .error .methodNamespace
  else if c.cache.ttlSeconds = 0 then .error .cacheTtl
  else if c.cache.maxSizeMb = 0 then .error .cacheSize
  else
    match c.defi.resolve, c.tokens.resolve with
    | .error fault, _ => .error fault
    | .ok _, .error fault => .error fault
    | .ok _, .ok _ => if c.logging.format = "json" ∨ c.logging.format = "pretty" then .ok () else .error .loggingFormat

end ChainBridge.Config
