/-
A bridge over a link that is handed in can be built exactly from a valid configuration.

Everything that is checked or read after validation has been checked by validation already: its fault is the only one
that can come up (`build_of_valid`, `build_of_fault`). With a link of its own a bridge also needs what that link needs.
-/
import Mathlib
import ChainBridge.Bridge.Build
import ChainBridge.Proofs.Config.Validity
import ChainBridge.Proofs.Defi.Slots

namespace ChainBridge.Bridge

open Config (Resolves)

variable {c : Config} {link : Link} {sweeping : Bool}

theorem Link.prepare_eq_ok_iff {limit : Nat} :
    link.prepare limit = .ok () ↔ link = .given ∨ link = .http none ∧ limit ≤ Rpc.Permits.largest := by
  unfold Link.prepare Rpc.Permits.size?
  split <;> simp_all

/-- a link of its own fails a bridge for want of a client, or because more permits are asked for than there can be -/
theorem Link.prepare_eq_error_iff {limit : Nat} {e : Error} :
    link.prepare limit = .error e ↔ (∃ fault, link = .http (some fault) ∧ e = .transport fault) ∨
      link = .http none ∧ Rpc.Permits.largest < limit ∧ e = .tooManyPermits limit := by
  unfold Link.prepare Rpc.Permits.size?
  split
  · simp
  · simp [eq_comm]
  · split_ifs with hsize <;> simp_all [eq_comm]

theorem build_of_fault {fault : Config.Fault} (h : c.validate = .error fault) (link : Link) (sweeping : Bool) :
    build (some c) link sweeping = .error (.configuration fault) := by
  rw [build, h]
  rfl

/-- from a valid configuration there comes a bridge, unless its link can not be prepared -/
theorem build_of_valid (h : c.validate = .ok ()) :
    ∃ o, c.options = .ok o ∧ ∀ link sweeping, build (some c) link sweeping =
      (link.prepare c.node.concurrentLimit.toNat).map fun _ => Blueprint.of c o sweeping := by
  have hvalid := Config.validate_eq_ok_iff.1 h
  obtain ⟨o, ho⟩ := hvalid.options
  refine ⟨o, ho, fun link sweeping => ?_⟩
  rw [build, h, Config.Cache.policy_validate hvalid.ttl hvalid.size, ho]
  cases link.prepare c.node.concurrentLimit.toNat <;> rfl

/-- a bridge comes from a valid configuration -/
theorem validate_of_build {b : Blueprint} (h : build (some c) link sweeping = .ok b) : c.validate = .ok () := by
  cases hvalidate : c.validate with
  | ok => rfl
  | error fault => exact nomatch (build_of_fault hvalidate link sweeping).symm.trans h

/-- what a bridge is made of is what was validated -/
theorem eq_of_build {b : Blueprint} (h : build (some c) link sweeping = .ok b) :
    ∃ o, c.options = .ok o ∧ link.prepare c.node.concurrentLimit.toNat = .ok () ∧ b = Blueprint.of c o sweeping := by
  obtain ⟨o, ho, hbuild⟩ := build_of_valid (validate_of_build h)
  rw [hbuild] at h
  cases hlink : link.prepare c.node.concurrentLimit.toNat with
  | error e =>
    rw [hlink] at h
    cases h
  | ok =>
    rw [hlink] at h
    exact ⟨o, ho, rfl, (Except.ok.inj h).symm⟩

/-- after validation nothing but the link can fail a bridge -/
theorem prepare_of_build {e : Error} (h : c.validate = .ok ()) (he : build (some c) link sweeping = .error e) :
    link.prepare c.node.concurrentLimit.toNat = .error e := by
  obtain ⟨o, -, hbuild⟩ := build_of_valid h
  rw [hbuild] at he
  exact map_eq_error_iff.1 he

/-- over a link that is handed in a bridge can be built exactly from a configuration that validation accepts, and else
the fault that validation finds is told. Whatever the time to live and the budget are, if they are not zero, the cache
is not refused; whatever the link is, after validation neither the cache nor the inputs of the repository can be what is
wrong. A bridge works with the addresses that the validated texts parse to, each in its own field. -/
theorem builds_iff_valid (c : Config) (sweeping : Bool) :
    ((∃ b, build (some c) .given sweeping = .ok b) ↔ c.validate = .ok ()) ∧
    (∀ fault, c.validate = .error fault → build (some c) .given sweeping = .error (.configuration fault) ∧
      (Error.configuration fault).reason = fault.message) ∧
    (∀ cache : Config.Cache, cache.ttlSeconds ≠ 0 → cache.maxSizeMb ≠ 0 → cache.policy.validate = .ok () ∧
      cache.policy.maxSize = min (cache.maxSizeMb.toNat * Config.mebibyte) Config.largestWord) ∧
    (c.validate = .ok () → (∃ o, c.options = .ok o) ∧ ∀ link,
      (∀ e, build (some c) link sweeping ≠ .error (.cache e)) ∧
      ∀ fault, build (some c) link sweeping ≠ .error (.configuration fault)) ∧
    ∀ link b, build (some c) link sweeping = .ok b →
      b.setup.policy = c.cache.policy ∧ Resolves c.defi b.options.defi := by
  refine ⟨⟨fun ⟨b, hb⟩ => validate_of_build hb, fun h => ?_⟩, fun fault h => ?_, fun cache httl hsize => ?_,
    fun h => ?_, fun link b hb => ?_⟩
  · obtain ⟨o, -, hbuild⟩ := build_of_valid h
    exact ⟨_, hbuild .given sweeping⟩
  · exact ⟨build_of_fault h .given sweeping, rfl⟩
  · exact ⟨Config.Cache.policy_validate httl hsize, rfl⟩
  · obtain ⟨o, ho, -⟩ := build_of_valid h
    refine ⟨⟨o, ho⟩, fun link => ⟨fun e he => ?_, fun fault hfault => ?_⟩⟩
    · rcases Link.prepare_eq_error_iff.1 (prepare_of_build h he) with ⟨fault, -, hne⟩ | ⟨-, -, hne⟩
      · cases hne
      · cases hne
    · rcases Link.prepare_eq_error_iff.1 (prepare_of_build h hfault) with ⟨e, -, hne⟩ | ⟨-, -, hne⟩
      · cases hne
      · cases hne
  · obtain ⟨o, ho, -, rfl⟩ := eq_of_build hb
    exact ⟨rfl, (Config.options_eq_ok_iff.1 ho).1⟩

end ChainBridge.Bridge
