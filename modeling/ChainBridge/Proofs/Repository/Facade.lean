/-
A repository answers like the node behind it.

Every load of every operation asks for the query that its key stands for, so no two questions share a key. Against a
node that answers each request in the same way the cache is therefore truthful: whatever it stores or hands out under a
key is what the node answers to the query of the key. An operation under way knows for which of its loads each of its
callers stands, and when it returns, its callers come away with what the node would have answered to just these loads.
- `answers_direct`: in every run against such a node, whatever is invalidated, swept, evicted, expired or given up in
  between, an operation that returns has the answer that it would have had without a cache.
-/
import Mathlib
import ChainBridge.Proofs.Cache.Truth
import ChainBridge.Proofs.Repository.Visits

namespace ChainBridge.Repository

/-! ## Answers without a cache -/

/-- what a query comes to when the node is asked -/
def Node.result (node : Node) (ns : String) (q : Rpc.Query) : Except Rpc.Error Value :=
  q.conclude ns (node (q.request ns))

theorem Node.settle_eq (node : Node) (ns : String) (q : Rpc.Query) : node.settle ns q = .of (node.result ns q) := by
  unfold Node.settle Node.result
  cases q.conclude ns (node (q.request ns)) <;> rfl

theorem ofSettled_of (key : Key) (result : Except Rpc.Error Value) :
    ofSettled key (.of result) = result.mapError .rpc := by
  cases result <;> rfl

theorem Operation.direct_eq (o : Options) (node : Node) (ns : String) (op : Operation) :
    op.direct o node ns = op.answer o ((op.loads o).map fun l => node.settle ns l.job) := rfl

/-- without a cache the conclusion is drawn from what the node answers to each load -/
theorem Operation.direct_conclude (o : Options) (node : Node) (ns : String) (op : Operation) :
    op.direct o node ns =
      op.conclude o ((op.loads o).map fun l => (l.job.conclude ns (node (l.job.request ns))).mapError .rpc) := by
  rw [op.direct_eq, Operation.answer, ← List.map_prod_left_eq_zip, List.map_map]
  refine congrArg (op.conclude o) (List.map_congr_left fun l _ => ?_)
  simp only [Function.comp, Node.settle_eq, ofSettled_of, Node.result]

/-! ## Operations under way -/

/-- the cache of a repository whose replies are those of one node -/
abbrev Faithful (s : Setting) (node : Node) (cache : Cache.St Key Value Rpc.Error Rpc.Query) : Prop :=
  Cache.Truthful (node.result s.ns) (fun key q => key.query? = some q) cache

/-- the cache holds what the node answers, every operation under way knows its callers, and every answer that was given
is that of the node -/
structure Sound (s : Setting) (node : Node) (st : St) : Prop where
  cache : Faithful s node st.cache
  ids : (st.visits.map (·.id)).Nodup
  fresh : ∀ v ∈ st.visits, v.id < st.nextVisit
  asked : ∀ v ∈ st.visits, Asked s.options st.cache v
  returned : ∀ r ∈ st.returned, r.answer = r.operation.direct s.options node s.ns

theorem new_sound (s : Setting) (node : Node) : Sound s node .new := by
  refine ⟨Cache.new_truthful, List.nodup_nil, ?_, ?_, ?_⟩ <;> exact fun _ h => absurd h List.not_mem_nil

/-- callers that all come away from a faithful cache bring what the node answers to their loads -/
theorem settledAll?_eq {s : Setting} {node : Node} {cache : Cache.St Key Value Rpc.Error Rpc.Query}
    (h : Faithful s node cache) {ids : List Nat} {loads : List Load} (hstand : List.Forall₂ (StandsFor cache) ids loads)
    (hquery : ∀ l ∈ loads, l.key.query? = some l.job) {settled : List (Cache.Settled Value Rpc.Error)}
    (hs : Cache.settledAll? cache ids = some settled) : settled = loads.map fun l => node.settle s.ns l.job := by
  have hall := settledAll?_lawful h.lawful hstand hs
  clear hstand hs
  induction hall with
  | nil => rfl
  | @cons l sv loads settled hfirst _ ih =>
    obtain ⟨-, ⟨q, hfits, rfl⟩, rfl⟩ := hfirst
    obtain rfl := Option.some.inj ((hquery l List.mem_cons_self).symm.trans hfits)
    rw [List.map_cons, ← ih fun l hl => hquery l (List.mem_cons_of_mem _ hl), Node.settle_eq]
    rfl

/-! ## Runs -/

/-- an act that a node which answers in the same way allows keeps the cache faithful -/
theorem faithful_step {s : Setting} {node : Node} {st : St} (h : Faithful s node st.cache) {act : Act}
    (ha : act.Allowed s node st) : Faithful s node (step s st act).cache := by
  have hother : (∀ fill result, act ≠ .reply fill result) → Faithful s node (Repository.step s st act).cache := by
    intro hact
    refine step_cache (fun _ cache metrics hcache => hcache.counted metrics) (fun cache a hissued hcache => ?_) h
    refine hcache.step s.setup a ?_
    cases hissued with
    | ask _ _ _ _ hquery => exact hquery
    | reply fill result => exact absurd rfl (hact fill result)
    | crash fill => exact ha.elim
    | _ => trivial
  cases act with
  | reply fill result =>
    simp only [Repository.step, St.reply]
    split
    · rename_i i key ttl q hf
      refine (h.counted _).step s.setup (.finish fill (q.conclude s.ns result)) fun f hf' => ?_
      obtain rfl := Option.some.inj (hf.symm.trans hf')
      rw [ha _ hf, Node.result]
    · exact h
  | _ => exact hother (by simp)

namespace Sound

variable {s : Setting} {node : Node} {st : St}

theorem attended (h : Sound s node st) : Attended s st := ⟨h.ids, h.fresh, h.cache.below, h.asked⟩

/-- an operation that returns has asked for all of its loads, and its callers bring what the node answers to them -/
theorem returned_step (h : Sound s node st) (act : Act) :
    ∀ r ∈ (Repository.step s st act).returned, r.answer = r.operation.direct s.options node s.ns := by
  intro r hr
  cases step_visits s st act with
  | quiet _ _ _ _ hsame => exact h.returned r (hsame ▸ hr)
  | started op _ he =>
    rw [he] at hr
    exact h.returned r hr
  | asked _ _ _ _ _ _ _ _ hsame => exact h.returned r (hsame ▸ hr)
  | left v _ _ he =>
    rw [he] at hr
    exact h.returned r hr
  | returned v settled _ hv hnext hsettled he =>
    rw [he, List.mem_append, List.mem_singleton] at hr
    rcases hr with hr | rfl
    · exact h.returned r hr
    · have hcallers := (h.asked v (visit?_some hv).1).all hnext
      rw [Operation.direct_eq, settledAll?_eq h.cache hcallers (v.operation.loads_query s.options) hsettled]

theorem step (h : Sound s node st) {act : Act} (ha : act.Allowed s node st) : Sound s node (step s st act) := by
  have hattended := h.attended.step act
  exact ⟨faithful_step h.cache ha, hattended.ids, hattended.fresh, hattended.asked, h.returned_step act⟩

theorem run (h : Sound s node st) (acts : List Act) (hf : Follows s node st acts) : Sound s node (run s st acts) := by
  induction acts generalizing st with
  | nil => exact h
  | cons act acts ih => exact ih (h.step hf.1) hf.2

end Sound

/-- **A repository answers like its node.** In every run against a node that answers each request in the same way, in
which no fill crashes, an operation that returns has the answer that it would have without a cache: the conclusion from
what the node answers to each of its loads, with the node's own errors among them. -/
theorem answers_direct (s : Setting) (node : Node) (acts : List Act) (h : Follows s node .new acts) :
    ∀ r ∈ (run s .new acts).returned,
      r.answer = r.operation.direct s.options node s.ns ∧
      r.answer = r.operation.conclude s.options ((r.operation.loads s.options).map fun l =>
        (l.job.conclude s.ns (node (l.job.request s.ns))).mapError .rpc) := by
  intro r hr
  have hdirect := ((new_sound s node).run acts h).returned r hr
  exact ⟨hdirect, hdirect.trans (Operation.direct_conclude s.options node s.ns r.operation)⟩

/-- a node on which every account has a balance of five and there are no contracts -/
def Node.bare : Node := fun r => if r.method = "ftm_getBalance" then .ok (.text "0x5") else .error (.remote 3 "no code")

/-- two operations share a fill, of which the one that started it is given up; a third is served what it came to; and a
fourth probes a token -/
def sharedVisits : List Act :=
  [.visit (.balance .zero), .visit (.balance .zero), .ask 1, .ask 2, .begin 1, .giveUp 1, .clear,
    .reply 1 (.ok (.text "0x5")), .tell 1, .visit (.balance .zero), .ask 3, .purge, .resume 2, .resume 3,
    .visit (.findToken .zero), .ask 4, .begin 2, .reply 2 (.error (.remote 3 "no code")), .tell 2, .resume 4]

/-- the operations that return have the answers that they would have had without a cache -/
theorem sharedVisits_direct :
    let returned := (run .plain .new sharedVisits).returned
    Follows .plain .bare .new sharedVisits ∧
    returned.map (·.answer) = [.ok (.amount 5), .ok (.amount 5), .ok .noToken] ∧
    ∀ r ∈ returned, r.answer = r.operation.direct Setting.plain.options .bare "ftm" := by
  intro returned
  have hfollows : Follows .plain .bare .new sharedVisits := by
    refine ⟨trivial, trivial, trivial, trivial, trivial, trivial, trivial, ?_, trivial, trivial, trivial, trivial,
      trivial, trivial, trivial, trivial, trivial, ?_, trivial, trivial, trivial⟩
    · intro f hf
      obtain rfl : ⟨1, ⟨.zero, .accountBalance, none⟩, none, .balance .zero .latest, .running⟩ = f := Option.some.inj hf
      rfl
    · intro f hf
      obtain rfl : ⟨2, ⟨.zero, .totalSupply, none⟩, none, .call .zero .totalSupply .latest, .running⟩ = f :=
        Option.some.inj hf
      rfl
  exact ⟨hfollows, rfl, fun r hr => (answers_direct .plain .bare sharedVisits hfollows r hr).1⟩

end ChainBridge.Repository
