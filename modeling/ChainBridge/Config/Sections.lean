/-
The sections of a configuration and the order of their fields.

How a section, a text and a number are taken from a value is a matter of the notation, which a `Reading` describes. What
is left out has its default, and what is unknown is passed over.
-/
import ChainBridge.Config.Basic
import ChainBridge.Json.Basic

namespace ChainBridge.Config

/-- how the parts of a configuration are taken from a value -/
structure Reading where
  /-- the fields of a section, by their names -/
  fields? : List String → Json → Option (List (Option Json))
  text? : Json → Option String
  word? : Json → Option UInt64

namespace Reading

def textOr? (r : Reading) (default : String) : Option Json → Option String
  | none => some default
  | some v => r.text? v

def wordOr? (r : Reading) (default : UInt64) : Option Json → Option UInt64
  | none => some default
  | some v => r.word? v

def texts? (r : Reading) : List (String × Json) → Option (List (String × String))
  | [] => some []
  | (name, v) :: rest => do
    let text ← r.text? v
    return (name, text) :: (← r.texts? rest)

/-- a table of texts -/
def table? (r : Reading) : Option Json → Option (List (String × String))
  | none => some []
  | some (.object members) => r.texts? members
  | some _ => none

def sectionOr? {α : Type} (default : α) (read : Json → Option α) : Option Json → Option α
  | none => some default
  | some v => read v

/-- what an object has under each of the names -/
def named (names : List String) (members : List (String × Json)) : List (Option Json) :=
  names.map fun n => (members.find? (·.1 == n)).map (·.2)

/-- the items of a list in the places of the names; what is missing at the end is left out -/
def placed (names : List String) (items : List Json) : List (Option Json) :=
  items.map some ++ List.replicate (names.length - items.length) none

end Reading

/-! ## Names of fields -/

def Node.names : List String := ["url", "timeout_seconds", "concurrent_limit", "method_namespace"]

def Cache.names : List String := ["ttl_seconds", "max_size_mb", "sweep_interval_seconds"]

def Defi.names : List String := [
  "fmint_contract", "fmint_address_provider", "fmint_token_registry", "fmint_reward_distribution",
  "fmint_collateral_pool", "fmint_debt_pool", "price_oracle_aggregate"]

def Tokens.names : List String := ["logos", "default_logo"]

def Logging.names : List String := ["level", "format"]

def names : List String := ["node", "cache", "defi", "tokens", "logging"]

/-! ## Reading -/

def Node.read? (r : Reading) (v : Json) : Option Node := do
  let d := Node.default
  match ← r.fields? Node.names v with
  | [url, timeout, limit, ns] =>
    return ⟨← r.textOr? d.url url, ← r.wordOr? d.timeoutSeconds timeout, ← r.wordOr? d.concurrentLimit limit,
      ← r.textOr? d.methodNamespace ns⟩
  | _ => none

def Cache.read? (r : Reading) (v : Json) : Option Cache := do
  let d := Cache.default
  match ← r.fields? Cache.names v with
  | [ttl, size, sweep] =>
    return ⟨← r.wordOr? d.ttlSeconds ttl, ← r.wordOr? d.maxSizeMb size, ← r.wordOr? d.sweepIntervalSeconds sweep⟩
  | _ => none

def Defi.read? (r : Reading) (v : Json) : Option Defi := do
  let d := Defi.default
  match ← r.fields? Defi.names v with
  | [contract, provider, registry, distribution, collateral, debt, oracle] =>
    return ⟨← r.textOr? d.fmintContract contract, ← r.textOr? d.fmintAddressProvider provider,
      ← r.textOr? d.fmintTokenRegistry registry, ← r.textOr? d.fmintRewardDistribution distribution,
      ← r.textOr? d.fmintCollateralPool collateral, ← r.textOr? d.fmintDebtPool debt,
      ← r.textOr? d.priceOracleAggregate oracle⟩
  | _ => none

def Tokens.read? (r : Reading) (v : Json) : Option Tokens := do
  match ← r.fields? Tokens.names v with
  | [logos, fallback] => return ⟨← r.table? logos, ← r.textOr? Tokens.default.defaultLogo fallback⟩
  | _ => none

def Logging.read? (r : Reading) (v : Json) : Option Logging := do
  let d := Logging.default
  match ← r.fields? Logging.names v with
  | [level, format] => return ⟨← r.textOr? d.level level, ← r.textOr? d.format format⟩
  | _ => none

def read? (r : Reading) (v : Json) : Option Config := do
  match ← r.fields? names v with
  | [node, cache, defi, tokens, logging] =>
    return ⟨← Reading.sectionOr? .default (Node.read? r) node, ← Reading.sectionOr? .default (Cache.read? r) cache,
      ← Reading.sectionOr? .default (Defi.read? r) defi, ← Reading.sectionOr? .default (Tokens.read? r) tokens,
      ← Reading.sectionOr? .default (Logging.read? r) logging⟩
  | _ => none

end ChainBridge.Config
