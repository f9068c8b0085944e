/-
Configuration: where the node is, how the cache behaves, the contracts of the lending module, token logos and logging.

Addresses are texts here; `Config.Validate` reads them. Numbers are words of 64 bits.
-/
import ChainBridge.Cache.Policy
import ChainBridge.Rpc.Query

namespace ChainBridge.Config

structure Node where
  url : String
  timeoutSeconds : UInt64
  /-- how many requests may be under way at once -/
  concurrentLimit : UInt64
  methodNamespace : String
deriving DecidableEq, Repr

def Node.default : Node := ⟨"http://127.0.0.1:18545", 30, 1000, Rpc.defaultNamespace⟩

structure Cache where
  ttlSeconds : UInt64
  maxSizeMb : UInt64
  /-- zero turns sweeping off -/
  sweepIntervalSeconds : UInt64
deriving DecidableEq, Repr

def Cache.default : Cache := ⟨900, 4096, 60⟩

structure Defi where
  fmintContract : String
  fmintAddressProvider : String
  fmintTokenRegistry : String
  fmintRewardDistribution : String
  fmintCollateralPool : String
  fmintDebtPool : String
  priceOracleAggregate : String
deriving DecidableEq, Repr

def Defi.default : Defi where
  fmintContract := "0x4acb55fe5f0b7c487edec3862079aa36ab054358"
  fmintAddressProvider := "0xdeec401e448d5d9132eb79ac84eb3f212d7759fb"
  fmintTokenRegistry := "0x60092e344c63c6628ec77926e508f9a9c80553ef"
  fmintRewardDistribution := "0x0039597eb5aa5760e8db15fbe525e56aa661ef26"
  fmintCollateralPool := "0x6d5f2f2e391f47a1075df4d39a24286c63c0e70c"
  fmintDebtPool := "0xe2d1105f35649bf16deebccec1f2100dcb9aadf5"
  priceOracleAggregate := "0xA1EA42f737bb2E09b0AE4DE001eE06e3BC484fE5"

structure Tokens where
  /-- addresses of tokens and of their logos, in any order -/
  logos : List (String × String)
  defaultLogo : String
deriving DecidableEq, Repr

def Tokens.default : Tokens := ⟨[], "https://i.ibb.co/RNLvGqm/symbol.png"⟩

structure Logging where
  level : String
  format : String
deriving DecidableEq, Repr

def Logging.default : Logging := ⟨"info", "pretty"⟩

end Config

structure Config where
  node : Config.Node
  cache : Config.Cache
  defi : Config.Defi
  tokens : Config.Tokens
  logging : Config.Logging
deriving DecidableEq, Repr

namespace Config

def default : Config := ⟨.default, .default, .default, .default, .default⟩

instance : Inhabited Config := ⟨default⟩

/-- the largest word of 64 bits -/
def largestWord : Nat := 0xFFFFFFFFFFFFFFFF

/-- the bytes of a mebibyte -/
def mebibyte : Nat := 0x100000

/-- the budget in bytes; what does not fit a word is the largest word -/
def Cache.maxSizeBytes (c : Cache) : Nat := min (c.maxSizeMb.toNat * mebibyte) largestWord

/-- how the cache behaves; its times are in milliseconds -/
def Cache.policy (c : Cache) : ChainBridge.Cache.Policy :=
  ⟨c.ttlSeconds.toNat * 1000, c.maxSizeBytes, c.sweepIntervalSeconds.toNat * 1000⟩

end Config

end ChainBridge
