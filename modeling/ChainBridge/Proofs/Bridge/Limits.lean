/-
Limits that a valid configuration may pass.

Validation asks of the cap on requests and of the time to live only that they are not zero. A pool can have just so many
permits, and the clock can name instants only up to an end, so both can be too large:
- `valid_configuration_overruns`: a valid configuration that no bridge with a link of its own can be built from, and one
  whose bridge stores nothing.
- `limits_decide`: these limits alone decide. Over its own link a bridge is built as over any other unless the cap
  exceeds what a pool can have; and an answer of the node is kept or turned away as it should be, unless it finds room
  and is to live past the end of the clock.
-/
import Mathlib
import ChainBridge.Proofs.Bridge.Building
import ChainBridge.Proofs.Cache.Overruns

namespace ChainBridge

open Repository (Key Operation)

/-- whatever an operation asks for is to live as long as the options say -/
theorem Repository.Operation.loads_ttl {o : Repository.Options} {op : Operation} {l : Repository.Load}
    (h : l ∈ op.loads o) : l.ttl = o.ttl := by
  cases op with
  | logo token => exact absurd h List.not_mem_nil
  | defi =>
    obtain ⟨slot, -, rfl⟩ := List.mem_map.1 h
    rfl
  | _ =>
    obtain rfl := List.mem_singleton.1 h
    rfl

namespace Bridge

/-- a run of the cache in which callers come with loads of operations only -/
def Loaded (o : Repository.Options) (acts : List (Cache.Act Key Value Rpc.Error Rpc.Query)) : Prop :=
  ∀ key ttl job, Cache.Act.fetch key ttl job ∈ acts → ∃ op : Operation, ⟨key, ttl, job⟩ ∈ op.loads o

/-- the fills of a bridge live as long as its configuration says -/
theorem ttl_of_build {c : Config} {link : Link} {sweeping : Bool} {b : Blueprint}
    (h : build (some c) link sweeping = .ok b) {acts : List (Cache.Act Key Value Rpc.Error Rpc.Query)}
    (hacts : Loaded b.options acts) {f : Cache.Fill Key Value Rpc.Error Rpc.Query}
    (hf : f ∈ (Cache.run b.setup .new acts).fills) :
    f.ttl.getD b.setup.policy.defaultTtl = c.cache.ttlSeconds.toNat * 1000 := by
  obtain ⟨o, ho, -, rfl⟩ := eq_of_build h
  obtain ⟨op, hl⟩ := hacts f.key f.ttl f.job (Cache.run_fetched _ acts f hf)
  obtain ⟨-, -, httl⟩ := Config.options_eq_ok_iff.1 ho
  have hnone : f.ttl = none := (Operation.loads_ttl hl).trans httl
  rw [hnone]
  rfl

/-! ## Two configurations -/

/-- more requests at once than a pool can have permits for -/
def crowded : Config := { Config.default with
  node := { Config.Node.default with concurrentLimit := 0x2000000000000000 } }

/-- answers that are to live for as many seconds as a word can count -/
def everlasting : Config := { Config.default with
  cache := { Config.Cache.default with ttlSeconds := 0xFFFFFFFFFFFFFFFF } }

theorem crowded_valid : crowded.validate = .ok () := by decide +kernel

theorem everlasting_valid : everlasting.validate = .ok () := by decide +kernel

/-- a balance is asked for, and its fill begins -/
def balanceAsked : List (Cache.Act Key Value Rpc.Error Rpc.Query) :=
  [.fetch ⟨.zero, .accountBalance, none⟩ none (.balance .zero .latest), .begin 1]

/-- the fill of the balance, when the node is about to answer -/
def balanceFill : Cache.Fill Key Value Rpc.Error Rpc.Query :=
  ⟨1, ⟨.zero, .accountBalance, none⟩, none, .balance .zero .latest, .running⟩

/-- the cache of a bridge whose answers are to live so long -/
def everlastingSetup : Cache.Setup := ⟨cacheName, everlasting.cache.policy⟩

theorem balanceAsked_loaded {o : Repository.Options} (h : o.ttl = none) : Loaded o balanceAsked := by
  intro key ttl job hmem
  rcases List.mem_cons.1 hmem with heq | hmem
  · obtain ⟨rfl, rfl, rfl⟩ := Cache.Act.fetch.inj heq
    exact ⟨.balance .zero, List.mem_singleton.2 (by rw [h])⟩
  · exact absurd hmem (by simp)

/-! ## The limits -/

/-- **Two limits that validation does not look at.** From a valid configuration a bridge with a link of its own is built
like one with a link that is handed in, unless no client can be made or there can not be as many permits as requests are
allowed. Whatever has been done to the cache of a bridge, and wherever the clock ends, a value that a running fill comes
to is offered to the store if the instant of its expiry comes before the end of the clock, and also if there is no room
for it. A value that finds room and is to live for longer crashes the fill, after the entries that make room for it have
gone. -/
theorem limits_decide (c : Config) (h : c.validate = .ok ()) (sweeping : Bool) (horizon : Nat) :
    (∀ fault, build (some c) (.http (some fault)) sweeping = .error (.transport fault)) ∧
    build (some c) (.http none) sweeping =
      (if Rpc.Permits.largest < c.node.concurrentLimit.toNat then .error (.tooManyPermits c.node.concurrentLimit.toNat)
        else build (some c) .given sweeping) ∧
    ∃ b, build (some c) .given sweeping = .ok b ∧ ∀ acts, Loaded b.options acts →
      let st := Cache.run b.setup .new acts
      ∀ f ∈ st.fills, f.stage = .running → ∀ v,
        let ended := st.conclude b.setup horizon f.id (some (.ok v))
        let expiry := st.now + c.cache.ttlSeconds.toNat * 1000
        (expiry < horizon ∨ ¬st.FindsRoom b.setup f v → ended = st.finish b.setup f.id (.ok v)) ∧
        (horizon ≤ expiry → st.FindsRoom b.setup f v → Cache.Overrun b.setup st ended f v) := by
  obtain ⟨o, -, hbuild⟩ := build_of_valid h
  have hgiven : build (some c) .given sweeping = .ok (Blueprint.of c o sweeping) := hbuild .given sweeping
  refine ⟨fun fault => hbuild (.http (some fault)) sweeping, ?_, _, hgiven, ?_⟩
  · rw [hbuild, hgiven]
    split_ifs with hmore
    · rw [Link.prepare_eq_error_iff.2 (.inr ⟨rfl, hmore, rfl⟩)]
      rfl
    · rw [Link.prepare_eq_ok_iff.2 (.inr ⟨rfl, Nat.le_of_not_lt hmore⟩)]
      rfl
  · intro acts hacts st f hf hrunning v ended expiry
    have hwf : st.store.Wf := Cache.run_wf _ acts
    have hsingle : Cache.Single st := Cache.run_single _ acts
    have hkeep := Cache.isKeepable_iff (c := (Blueprint.of c o sweeping).setup) (f := f) (v := v) horizon hwf
    rw [ttl_of_build hgiven hacts hf] at hkeep
    constructor
    · intro hfits
      exact Cache.conclude_keepable (Cache.fill?_of_mem hsingle.ids hf) (hkeep.2 hfits)
    · intro hend hroom
      refine Cache.conclude_overrun hwf hsingle hf hrunning (Bool.eq_false_iff.2 fun hkept => ?_)
      rcases hkeep.1 hkept with hlt | hno
      · exact absurd hlt (Nat.not_lt.2 hend)
      · exact hno hroom

/-- the balance that the node answers with is not stored, and its caller comes away with nothing -/
theorem everlasting_stores_nothing :
    everlasting.validate = .ok () ∧ ∃ b, build (some everlasting) .given true = .ok b ∧
      let ended := (Cache.run b.setup .new balanceAsked).conclude b.setup Cache.endOfTime 1 (some (.ok (.amount 1)))
      ended.store.find? balanceFill.key = none ∧ ended.fill? 1 = some { balanceFill with stage := .ended none } := by
  obtain ⟨-, -, b, hb, hdecide⟩ := limits_decide everlasting everlasting_valid true Cache.endOfTime
  obtain ⟨o, ho, -, rfl⟩ := eq_of_build hb
  obtain ⟨-, -, httl⟩ := Config.options_eq_ok_iff.1 ho
  obtain ⟨-, hover⟩ := hdecide balanceAsked (balanceAsked_loaded httl) balanceFill (List.mem_singleton_self _) rfl
    (.amount 1)
  have hend : Cache.endOfTime ≤ (Cache.run everlastingSetup .new balanceAsked).now +
      everlasting.cache.ttlSeconds.toNat * 1000 := by decide
  have hroom : (Cache.run everlastingSetup .new balanceAsked).FindsRoom everlastingSetup balanceFill (.amount 1) := by
    unfold Cache.St.FindsRoom
    decide
  have hoverrun := hover hend hroom
  exact ⟨everlasting_valid, _, hb, hoverrun.unstored, hoverrun.ended⟩

/-- it is not so that a bridge with a link of its own can be built from every valid configuration, nor that whatever a
bridge stores can live as long as it is to live -/
theorem valid_configuration_overruns :
    (¬∀ c : Config, c.validate = .ok () → ∃ b, build (some c) (.http none) true = .ok b) ∧
    ¬∀ (c : Config) (b : Blueprint), c.validate = .ok () → build (some c) .given true = .ok b →
      ∀ acts, Loaded b.options acts → ∀ f ∈ (Cache.run b.setup .new acts).fills, f.stage = .running →
        ∀ v, (Cache.run b.setup .new acts).isKeepable b.setup Cache.endOfTime f v = true := by
  constructor
  · intro hall
    obtain ⟨b, hb⟩ := hall crowded crowded_valid
    obtain ⟨-, -, hlink, -⟩ := eq_of_build hb
    have hfails : (Link.http none).prepare crowded.node.concurrentLimit.toNat =
      .error (.tooManyPermits 0x2000000000000000) := rfl
    exact nomatch hfails.symm.trans hlink
  · intro hall
    obtain ⟨o, ho, hbuild⟩ := build_of_valid everlasting_valid
    obtain ⟨-, -, httl⟩ := Config.options_eq_ok_iff.1 ho
    have hkept := hall everlasting _ everlasting_valid (hbuild .given true) balanceAsked (balanceAsked_loaded httl)
      balanceFill (List.mem_singleton_self _) rfl (.amount 1)
    have hlost : (Cache.run everlastingSetup .new balanceAsked).isKeepable everlastingSetup Cache.endOfTime balanceFill
        (.amount 1) = false := rfl
    exact absurd (hlost.symm.trans hkept) Bool.false_ne_true

end Bridge

end ChainBridge
