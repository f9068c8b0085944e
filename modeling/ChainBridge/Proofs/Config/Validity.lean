/-
What validation accepts, and what an accepted configuration resolves to.

Validation reads the addresses and throws them away; the inputs of the repository are read from the same texts once
more. Both readings are described by what the texts parse to (`Resolves`, `Known`), so they cannot come apart
(`Valid.options`), and a valid configuration also gives a cache that is not refused (`Cache.policy_validate`).
-/
import Mathlib
import ChainBridge.Config.Validate

namespace ChainBridge.Config

/-- what comes of two computations after each other -/
theorem bind_eq_ok {ε α β : Type} {x : Except ε α} {f : α → Except ε β} {b : β} :
    x >>= f = .ok b ↔ ∃ a, x = .ok a ∧ f a = .ok b := by
  cases x with
  | error e => simp [bind, Except.bind]
  | ok a => simp [bind, Except.bind]

/-! ## Addresses -/

@[simp]
theorem defiAddress_eq_ok_iff {field value : String} {a : Address} :
    defiAddress field value = .ok a ↔ Address.parse value = .ok a := by
  unfold defiAddress
  split <;> simp_all

/-- each field of the lending section parses to its own address -/
structure Resolves (d : Defi) (a : ChainBridge.Defi.Addresses) : Prop where
  fmintContract : Address.parse d.fmintContract = .ok a.fmintContract
  fmintAddressProvider : Address.parse d.fmintAddressProvider = .ok a.fmintAddressProvider
  fmintTokenRegistry : Address.parse d.fmintTokenRegistry = .ok a.fmintTokenRegistry
  fmintRewardDistribution : Address.parse d.fmintRewardDistribution = .ok a.fmintRewardDistribution
  fmintCollateralPool : Address.parse d.fmintCollateralPool = .ok a.fmintCollateralPool
  fmintDebtPool : Address.parse d.fmintDebtPool = .ok a.fmintDebtPool
  priceOracleAggregate : Address.parse d.priceOracleAggregate = .ok a.priceOracleAggregate

theorem Defi.resolve_eq_ok_iff {d : Defi} {a : ChainBridge.Defi.Addresses} : d.resolve = .ok a ↔ Resolves d a := by
  simp only [Defi.resolve, bind_eq_ok, defiAddress_eq_ok_iff]
  constructor
  · rintro ⟨a₁, h₁, a₂, h₂, a₃, h₃, a₄, h₄, a₅, h₅, a₆, h₆, a₇, h₇, heq⟩
    obtain rfl := Except.ok.inj heq
    exact ⟨h₁, h₂, h₃, h₄, h₅, h₆, h₇⟩
  · rintro ⟨h₁, h₂, h₃, h₄, h₅, h₆, h₇⟩
    exact ⟨_, h₁, _, h₂, _, h₃, _, h₄, _, h₅, _, h₆, _, h₇, rfl⟩

/-- every token with a logo is named by an address -/
def Known (t : Tokens) : Prop := ∀ entry ∈ t.logos, ∃ a, Address.parse entry.1 = .ok a

theorem resolveLogos_isOk_iff {logos : List (String × String)} {table : List (Address × String)} :
    (∃ full, resolveLogos table logos = .ok full) ↔ ∀ entry ∈ logos, ∃ a, Address.parse entry.1 = .ok a := by
  induction logos generalizing table with
  | nil => exact ⟨fun _ _ h => absurd h List.not_mem_nil, fun _ => ⟨table, rfl⟩⟩
  | cons entry rest ih =>
    rw [List.forall_mem_cons, resolveLogos]
    cases hparse : Address.parse entry.1 with
    | error fault => simp
    | ok a => simpa using ih

theorem Tokens.resolve_isOk_iff {t : Tokens} : (∃ logos, t.resolve = .ok logos) ↔ Known t := by
  rw [Known, ← @resolveLogos_isOk_iff _ [], Tokens.resolve]
  cases resolveLogos [] t.logos <;> simp [Except.map]

/-- what the repository is told: the parsed addresses, the logos, and nothing of how long answers live -/
theorem options_eq_ok_iff {c : Config} {o : Repository.Options} :
    c.options = .ok o ↔ Resolves c.defi o.defi ∧ c.tokens.resolve = .ok o.logos ∧ o.ttl = none := by
  simp only [options, bind_eq_ok, Defi.resolve_eq_ok_iff]
  constructor
  · rintro ⟨a, hdefi, logos, hlogos, heq⟩
    obtain rfl := Except.ok.inj heq
    exact ⟨hdefi, hlogos, rfl⟩
  · rintro ⟨hdefi, hlogos, httl⟩
    exact ⟨o.defi, hdefi, o.logos, hlogos, by rw [← httl]; rfl⟩

/-! ## Validation -/

/-- what a configuration must be like, in whatever order it is looked at -/
structure Valid (c : Config) : Prop where
  url : looksLikeUrl c.node.url = true
  timeout : c.node.timeoutSeconds ≠ 0
  limit : c.node.concurrentLimit ≠ 0
  ns : c.node.methodNamespace ≠ ""
  ttl : c.cache.ttlSeconds ≠ 0
  size : c.cache.maxSizeMb ≠ 0
  defi : ∃ a, Resolves c.defi a
  tokens : Known c.tokens
  format : c.logging.format = "json" ∨ c.logging.format = "pretty"

theorem validate_eq_ok_iff {c : Config} : c.validate = .ok () ↔ Valid c := by
  constructor
  · intro h
    unfold validate at h
    split_ifs at h with hurl htimeout hlimit hns httl hsize hformat
    · split at h
      · cases h
      · cases h
      · rename_i a logos hdefi hlogos
        exact ⟨by simpa using hurl, htimeout, hlimit, hns, httl, hsize, ⟨a, Defi.resolve_eq_ok_iff.1 hdefi⟩,
          Tokens.resolve_isOk_iff.1 ⟨logos, hlogos⟩, hformat⟩
    · split at h <;> cases h
  · rintro ⟨hurl, htimeout, hlimit, hns, httl, hsize, ⟨a, hdefi⟩, htokens, hformat⟩
    obtain ⟨logos, hlogos⟩ := Tokens.resolve_isOk_iff.2 htokens
    simp [validate, hurl, htimeout, hlimit, hns, httl, hsize, Defi.resolve_eq_ok_iff.2 hdefi, hlogos, hformat]

-- what a configuration is like when nothing is set
example : default.validate = .ok () := by decide +kernel

/-- what was read to validate a configuration can be read again -/
theorem Valid.options {c : Config} (h : Valid c) : ∃ o, c.options = .ok o := by
  obtain ⟨a, hdefi⟩ := h.defi
  obtain ⟨logos, hlogos⟩ := Tokens.resolve_isOk_iff.2 h.tokens
  exact ⟨⟨a, logos, none⟩, options_eq_ok_iff.2 ⟨hdefi, hlogos, rfl⟩⟩

/-! ## The cache -/

/-- a budget of at least a mebibyte is one, also where it is cut off at the largest word -/
theorem Cache.maxSizeBytes_ne_zero {c : Cache} (h : c.maxSizeMb ≠ 0) : c.maxSizeBytes ≠ 0 := by
  have hpos : c.maxSizeMb.toNat ≠ 0 := fun hzero => h (UInt64.toNat_inj.1 hzero)
  simp only [Cache.maxSizeBytes, mebibyte, largestWord]
  omega

/-- a cache is not refused if its configuration was not -/
theorem Cache.policy_validate {c : Cache} (httl : c.ttlSeconds ≠ 0) (hsize : c.maxSizeMb ≠ 0) :
    c.policy.validate = .ok () := by
  have hpos : c.ttlSeconds.toNat ≠ 0 := fun hzero => httl (UInt64.toNat_inj.1 hzero)
  rw [ChainBridge.Cache.Policy.validate, if_neg, if_neg]
  · exact Cache.maxSizeBytes_ne_zero hsize
  · exact Nat.mul_ne_zero hpos (by decide)

end ChainBridge.Config
