/-
What the program says about configurations, and the sample that it writes.
-/
import ChainBridge.Config.Layers
import ChainBridge.Config.Validate

namespace ChainBridge.CommandLine

/-! ## Lines -/

def success (text : String) : String := "[SUCCESS] " ++ text

def trouble (text : String) : String := "[ERROR] " ++ text

def info (text : String) : String := "[INFO] " ++ text

def number (n : UInt64) : String := toString n.toNat

/-- how often the cache is swept -/
def sweepText (c : Config.Cache) : String :=
  if c.sweepIntervalSeconds = 0 then "disabled" else "every " ++ number c.sweepIntervalSeconds ++ "s"

/-- a configuration in short -/
def summary (c : Config) : List String := [
  "Configuration Summary:",
  "  Node: " ++ c.node.url ++ " (namespace " ++ c.node.methodNamespace ++ ")",
  "  Cache: ttl " ++ number c.cache.ttlSeconds ++ "s, budget " ++ number c.cache.maxSizeMb ++ " MiB, sweep " ++
    sweepText c.cache,
  "  fMint contract: " ++ c.defi.fmintContract,
  "  Token logos: " ++ toString c.tokens.logos.length ++ " configured"]

/-- inserts a logo where it belongs -/
def insertLogo (logo : String × String) : List (String × String) → List (String × String)
  | [] => [logo]
  | l :: rest => if logo.1 ≤ l.1 then logo :: l :: rest else l :: insertLogo logo rest

/-- a configuration in full -/
def listing (c : Config) : List String := [
  "",
  "[Node]",
  "  URL: " ++ c.node.url,
  "  Timeout: " ++ number c.node.timeoutSeconds ++ "s",
  "  Concurrent Limit: " ++ number c.node.concurrentLimit,
  "  Method Namespace: " ++ c.node.methodNamespace,
  "",
  "[Cache]",
  "  TTL: " ++ number c.cache.ttlSeconds ++ "s",
  "  Max Size: " ++ number c.cache.maxSizeMb ++ " MiB",
  "  Sweep Interval: " ++ number c.cache.sweepIntervalSeconds ++ "s",
  "",
  "[DeFi]",
  "  fMint Contract: " ++ c.defi.fmintContract,
  "  Address Provider: " ++ c.defi.fmintAddressProvider,
  "  Token Registry: " ++ c.defi.fmintTokenRegistry,
  "  Reward Distribution: " ++ c.defi.fmintRewardDistribution,
  "  Collateral Pool: " ++ c.defi.fmintCollateralPool,
  "  Debt Pool: " ++ c.defi.fmintDebtPool,
  "  Price Oracle: " ++ c.defi.priceOracleAggregate,
  "",
  "[Tokens]",
  "  Default Logo: " ++ c.tokens.defaultLogo] ++
  (c.tokens.logos.foldr insertLogo []).map (fun l => "  " ++ l.1 ++ ": " ++ l.2) ++ [
  "",
  "[Logging]",
  "  Level: " ++ c.logging.level,
  "  Format: " ++ c.logging.format]

/-! ## Sample -/

/-- a configuration file that says what holds anyway -/
def sample : String := "\n".intercalate [
  "# Motif bridge configuration",
  "# Every value below is optional; omitted keys fall back to compiled defaults.",
  "# Any key can be overridden from the environment, e.g. MOTIF__NODE__URL.",
  "",
  "[node]",
  "url = \"http://127.0.0.1:18545\"",
  "timeout_seconds = 30",
  "concurrent_limit = 1000",
  "method_namespace = \"ftm\"",
  "",
  "[cache]",
  "ttl_seconds = 900",
  "max_size_mb = 4096",
  "# 0 disables the background expiry sweeper; expired entries are still dropped on read",
  "sweep_interval_seconds = 60",
  "",
  "[defi]",
  "fmint_contract = \"0x4acb55fe5f0b7c487edec3862079aa36ab054358\"",
  "fmint_address_provider = \"0xdeec401e448d5d9132eb79ac84eb3f212d7759fb\"",
  "fmint_token_registry = \"0x60092e344c63c6628ec77926e508f9a9c80553ef\"",
  "fmint_reward_distribution = \"0x0039597eb5aa5760e8db15fbe525e56aa661ef26\"",
  "fmint_collateral_pool = \"0x6d5f2f2e391f47a1075df4d39a24286c63c0e70c\"",
  "fmint_debt_pool = \"0xe2d1105f35649bf16deebccec1f2100dcb9aadf5\"",
  "price_oracle_aggregate = \"0xa1ea42f737bb2e09b0ae4de001ee06e3bc484fe5\"",
  "",
  "[tokens]",
  "default_logo = \"https://i.ibb.co/RNLvGqm/symbol.png\"",
  "",
  "[tokens.logos]",
  "# \"0x<token address>\" = \"https://example.org/logo.png\"",
  "",
  "[logging]",
  "level = \"info\"",
  "format = \"pretty\"",
  ""]

end ChainBridge.CommandLine
