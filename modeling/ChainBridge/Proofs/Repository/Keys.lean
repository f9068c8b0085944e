/-
Keys stand for requests, one for one.

A key is made apart from the query that it stands for, from the same arguments in other places: of an allowance the
spender belongs to the field of the key and the owner is its second address, while the call names the owner first and
the spender second. `Key.query?` is the query that a key stands for, and every load of every operation asks for its own
query under its key (`Operation.loads_query`). `Query.key` makes the key of any query, and that of a load's query is the
key of the load (`Operation.loads_key`). So loads share a key just when they send the same request, and then they read
the reply alike.
-/
import Mathlib
import ChainBridge.Proofs.Cache.Runs
import ChainBridge.Proofs.Rpc.Requests
import ChainBridge.Repository.Operation

namespace ChainBridge

namespace Repository

/-! ## The query of a key -/

/-- the query that a key stands for -/
def Key.query? : Key → Option Rpc.Query
  | ⟨account, .accountBalance, none⟩ => some (.balance account .latest)
  | ⟨account, .accountNonce, none⟩ => some (.transactionCount account .latest)
  | ⟨token, .totalSupply, none⟩ => some (.call token .totalSupply .latest)
  | ⟨token, .balanceOf, some owner⟩ => some (.call token (.balanceOf owner) .latest)
  | ⟨token, .allowance spender, some owner⟩ => some (.call token (.allowance owner spender) .latest)
  | ⟨contract, .defi slot, none⟩ => some (.call contract slot.call .latest)
  | _ => none

/-- a load asks for the query that its key stands for -/
theorem Operation.loads_query (o : Options) (op : Operation) : ∀ l ∈ op.loads o, l.key.query? = some l.job := by
  intro l hl
  cases op with
  | logo token => exact absurd hl List.not_mem_nil
  | defi =>
    obtain ⟨slot, -, rfl⟩ := List.mem_map.1 hl
    rfl
  | _ =>
    rw [List.mem_singleton.1 hl]
    rfl

end Repository

/-! ## The key of a query -/

/-- what a call asks its contract for, and the second address of the key -/
def Call.field : Call → Repository.Field × Option Address
  | .totalSupply => (.totalSupply, none)
  | .balanceOf owner => (.balanceOf, some owner)
  | .allowance owner spender => (.allowance spender, some owner)
  | .mintFee4 => (.defi .mintFee, none)
  | .minCollateralRatio4 => (.defi .minCollateralRatio, none)
  | .rewardCollateralRatio4 => (.defi .rewardCollateralRatio, none)
  | .feeDigitsCorrection => (.defi .feeDigitsCorrection, none)

/-- the key of what a query asks for, at whatever block -/
def Rpc.Query.key : Rpc.Query → Repository.Key
  | .balance account _ => ⟨account, .accountBalance, none⟩
  | .transactionCount account _ => ⟨account, .accountNonce, none⟩
  | .call contract c _ => ⟨contract, c.field.1, c.field.2⟩

namespace Repository

theorem Key.query?_key {k : Key} {q : Rpc.Query} (h : k.query? = some q) : q.key = k := by
  unfold query? at h
  split at h
  case h_6 contract slot =>
    obtain rfl := Option.some.inj h
    cases slot <;> rfl
  case h_7 => exact absurd h (by simp)
  all_goals
    obtain rfl := Option.some.inj h
    rfl

/-- a key stands for a query about the latest block -/
theorem Key.query?_block {k : Key} {q : Rpc.Query} (h : k.query? = some q) : q.block = .latest := by
  unfold query? at h
  split at h
  case h_7 => exact absurd h (by simp)
  all_goals
    obtain rfl := Option.some.inj h
    rfl

variable {o o' : Options} {op op' : Operation} {l l' : Load}

theorem Operation.loads_key (hl : l ∈ op.loads o) : l.job.key = l.key := Key.query?_key (op.loads_query o l hl)

theorem Operation.loads_block (hl : l ∈ op.loads o) : l.job.block = .latest := Key.query?_block (op.loads_query o l hl)

/-- loads with one key ask one query -/
theorem Operation.job_of_key (hl : l ∈ op.loads o) (hl' : l' ∈ op'.loads o') (h : l.key = l'.key) : l.job = l'.job := by
  have hquery := op.loads_query o l hl
  rw [h, op'.loads_query o' l' hl'] at hquery
  exact (Option.some.inj hquery).symm

/-- loads with one request have one key -/
theorem Operation.key_of_request {ns : String} (hl : l ∈ op.loads o) (hl' : l' ∈ op'.loads o')
    (h : l.job.request ns = l'.job.request ns) : l.key = l'.key := by
  have hblock : l.job.block = l'.job.block := (loads_block hl).trans (loads_block hl').symm
  rw [← loads_key hl, ← loads_key hl', Rpc.Query.eq_of_request hblock h]

/-- **Keys are requests.** Whatever is asked with whatever arguments, two loads have the same key if and only if they
send the same request, and then they conclude the same from every reply. Different calls have different call data; and
an allowance without a spender is the allowance of the configured minter, with its key and its request. -/
theorem keys_are_requests (ns : String) (o o' : Options) (op op' : Operation) :
    (∀ l ∈ op.loads o, ∀ l' ∈ op'.loads o',
      (l.key = l'.key ↔ l.job.request ns = l'.job.request ns) ∧
      (l.key = l'.key → ∀ reply, l.job.conclude ns reply = l'.job.conclude ns reply)) ∧
    Function.Injective Call.encode ∧ Function.Injective Call.data ∧
    ∀ t owner, (Operation.allowance t owner none).loads o =
      (Operation.allowance t owner (some o.defi.fmintContract)).loads o := by
  refine ⟨fun l hl l' hl' => ⟨⟨fun h => ?_, Operation.key_of_request hl hl'⟩, fun h reply => ?_⟩,
    Call.encode_injective, Call.data_injective, fun _ _ => rfl⟩
  · rw [Operation.job_of_key hl hl' h]
  · rw [Operation.job_of_key hl hl' h]

/-- a repository under the default policy with no settings of its own -/
def Setting.plain : Setting :=
  ⟨"ftm", .plain, ⟨⟨.zero, .zero, .zero, .zero, .zero, .zero, .zero⟩, ⟨[], ""⟩, none⟩⟩

/-- what one account may take from another, and the other way round; the other is the minter -/
theorem swapped_allowances :
    let o := Setting.plain.options
    let account : Address := ⟨List.replicate 20 1, rfl⟩
    let l := callLoad o .zero (.allowance account) (some .zero) (.allowance .zero account)
    let l' := callLoad o .zero (.allowance .zero) (some account) (.allowance account .zero)
    l ∈ (Operation.allowance .zero .zero (some account)).loads o ∧
    l' ∈ (Operation.allowance .zero account none).loads o ∧
    l.job.request "ftm" ≠ l'.job.request "ftm" := by
  intro o account l l'
  have hl : l ∈ (Operation.allowance .zero .zero (some account)).loads o := List.mem_singleton_self l
  have hl' : l' ∈ (Operation.allowance .zero account none).loads o := List.mem_singleton_self l'
  have hkeys : l.key ≠ l'.key := by decide
  obtain ⟨hsame, -⟩ := (keys_are_requests "ftm" o o _ _).1 l hl l' hl'
  exact ⟨hl, hl', fun h => hkeys (hsame.2 h)⟩

end Repository

end ChainBridge
