/-
Counts and amounts are never taken for one another.

One cache keeps both: under the key of a nonce a count belongs, under any other key an amount (`Key.Suits`). What a
query makes of a reply suits its own key (`Query.conclude_suits`), and a fill ends with what the query of its key makes
of a reply, so in every run of a repository the cache is lawful in this sense (`run_suited`). Whatever a load comes to
can then be read as the operation reads it, and an operation ends with an error only if one of its loads did
(`Operation.conclude_error`).
- `run_shapes`: in every run, whatever an operation reads is of the shape that it expects.
-/
import Mathlib
import ChainBridge.Proofs.Defi.Slots
import ChainBridge.Proofs.Repository.Visits
import ChainBridge.Proofs.Rpc.Inquiries

namespace ChainBridge

namespace Repository

/-- whether a value is of the shape that belongs under a key -/
def Key.Suits (key : Key) : Value → Prop
  | .count _ => key.field = .accountNonce
  | .amount _ => key.field ≠ .accountNonce

/-- whether a value is of the shape that an operation reads -/
def Operation.Reads (op : Operation) (v : Value) : Prop :=
  match op with
  | .nonce _ => ∃ n, expectCount v = .ok n
  | _ => ∃ n, expectAmount v = .ok n

/-- of outcomes only values have a shape -/
def Suited (key : Key) (outcome : Option (Except Rpc.Error Value)) : Prop := ∀ v, outcome = some (.ok v) → key.Suits v

theorem Suited.of_value {key : Key} {outcome : Option (Except Rpc.Error Value)} (h : Suited key outcome) {v : Value}
    (hv : .value v = Cache.Settled.ofOutcome outcome) : key.Suits v := by
  match outcome with
  | none => exact absurd hv (by simp [Cache.Settled.ofOutcome])
  | some (.error e) => exact absurd hv (by simp [Cache.Settled.ofOutcome])
  | some (.ok w) =>
    rw [Cache.Settled.value.inj hv]
    exact h w rfl

theorem not_nonce_suits {key : Key} (hkey : key.field ≠ .accountNonce) {v : Value} (h : key.Suits v) :
    ∃ n, expectAmount v = .ok n := by
  cases v with
  | amount n => exact ⟨n, rfl⟩
  | count n => exact absurd h hkey

/-- what suits the key of a load is what the operation reads -/
theorem Operation.reads_of_suits {o : Options} {op : Operation} {l : Load} (hl : l ∈ op.loads o) {v : Value}
    (h : l.key.Suits v) : op.Reads v := by
  cases op with
  | nonce account =>
    obtain rfl := List.mem_singleton.1 hl
    cases v with
    | count n => exact ⟨n, rfl⟩
    | amount n => exact absurd rfl h
  | logo token => exact absurd hl List.not_mem_nil
  | defi =>
    obtain ⟨slot, -, rfl⟩ := List.mem_map.1 hl
    exact not_nonce_suits (by simp [slotLoad, callLoad]) h
  | _ =>
    obtain rfl := List.mem_singleton.1 hl
    exact not_nonce_suits (by simp [supplyLoad, callLoad]) h

end Repository

namespace Rpc.Query

theorem Reads.suits {q : Query} {text : String} {v : Value} (h : q.Reads text v) : q.key.Suits v := by
  cases h with
  | balance _ => simp [key, Repository.Key.Suits]
  | transactionCount _ => rfl
  | @call _ c => cases c <;> simp [key, Repository.Key.Suits, Call.field]

/-- what a query makes of a reply suits its key -/
theorem conclude_suits {ns : String} {q : Query} {reply : Except Error Json} {v : Value}
    (h : q.conclude ns reply = .ok v) : q.key.Suits v := by
  obtain ⟨_, -, hread⟩ := conclude_ok_iff.1 h
  exact hread.suits

end Rpc.Query

namespace Repository

/-! ## The cache -/

/-- the cache of a repository in which every value suits its key -/
abbrev SuitedCache (cache : Cache.St Key Value Rpc.Error Rpc.Query) : Prop :=
  Cache.Lawful (fun key q => key.query? = some q) Suited cache

theorem step_suited (s : Setting) {st : St} (h : SuitedCache st.cache) (act : Act) :
    SuitedCache (step s st act).cache := by
  refine step_cache (fun _ cache metrics hcache => hcache.counted metrics) (fun cache a hissued hcache => ?_) h
  refine hcache.step s.setup a ?_
  cases hissued with
  | ask _ _ _ _ hquery => exact hquery
  | reply fill result f hf _ =>
    intro f' hf' hquery v hv
    obtain rfl := Option.some.inj (hf.symm.trans hf')
    rw [← Key.query?_key hquery]
    exact Rpc.Query.conclude_suits (Option.some.inj hv)
  | crash fill => exact fun f _ v hv => absurd hv (by simp)
  | _ => trivial

theorem run_suited (s : Setting) (acts : List Act) : SuitedCache (run s .new acts).cache := by
  induction acts using List.reverseRecOn with
  | nil => exact Cache.new_lawful
  | append_singleton acts act ih =>
    rw [run_snoc]
    exact step_suited s ih act

/-! ## Operations that return -/

/-- what an operation that returned came away with suits its loads, and its answer is concluded from that -/
def Return.Suits (o : Options) (r : Return) : Prop :=
  List.Forall₂ (fun l sv => ∃ outcome, Suited l.key outcome ∧ sv = .ofOutcome outcome) (r.operation.loads o) r.settled ∧
  r.answer = r.operation.answer o r.settled

theorem run_returned_suits (s : Setting) (acts : List Act) :
    ∀ r ∈ (run s .new acts).returned, r.Suits s.options := by
  induction acts using List.reverseRecOn with
  | nil => exact fun r hr => absurd hr List.not_mem_nil
  | append_singleton acts act ih =>
    intro r hr
    rw [run_snoc] at hr
    cases step_visits s (run s .new acts) act with
    | quiet _ _ _ _ hsame => exact ih r (hsame ▸ hr)
    | started op _ he =>
      rw [he] at hr
      exact ih r hr
    | asked _ _ _ _ _ _ _ _ hsame => exact ih r (hsame ▸ hr)
    | left v _ _ he =>
      rw [he] at hr
      exact ih r hr
    | returned v settled _ hv hnext hsettled he =>
      rw [he, List.mem_append, List.mem_singleton] at hr
      rcases hr with hr | rfl
      · exact ih r hr
      · have hcallers := ((run_attended s acts).asked v (visit?_some hv).1).all hnext
        exact ⟨settledAll?_lawful (run_suited s acts) hcallers hsettled, rfl⟩

/-- what the loads of an operation that returned came to -/
def Return.answers (o : Options) (r : Return) : List (Except Error Value) :=
  ((r.operation.loads o).zip r.settled).map fun (l, sv) => ofSettled l.key sv

theorem ofSettled_ok {key : Key} {sv : Cache.Settled Value Rpc.Error} {v : Value} (h : ofSettled key sv = .ok v) :
    sv = .value v := by
  cases sv with
  | value w => rw [Except.ok.inj h]
  | failed e => exact absurd h (by simp [ofSettled])
  | abandoned => exact absurd h (by simp [ofSettled])

/-- a load fails as the node did or because its fill was lost, and never because there is no token -/
theorem ofSettled_absence {key : Key} {sv : Cache.Settled Value Rpc.Error} {source : Error}
    (h : ofSettled key sv = .error source) :
    source.isNotFound = false ∧ (isAbsence source = true → ∃ e, sv = .failed e ∧ e.isTransport = false) := by
  cases sv with
  | value w => exact absurd h (by simp [ofSettled])
  | failed e =>
    obtain rfl := Except.error.inj h
    exact ⟨rfl, fun habsent => ⟨e, rfl, by simpa [isAbsence] using habsent⟩⟩
  | abandoned =>
    obtain rfl := Except.error.inj h
    exact ⟨rfl, fun habsent => absurd habsent (by simp [isAbsence])⟩

namespace Return.Suits

variable {o : Options} {r : Return}

theorem reads (h : r.Suits o) {v : Value} (hv : .value v ∈ r.settled) : r.operation.Reads v := by
  obtain ⟨hlength, hsuited⟩ := List.forall₂_iff_zip.1 h.1
  rw [← List.map_snd_zip hlength.ge] at hv
  obtain ⟨⟨l, sv⟩, hp, he⟩ := List.mem_map.1 hv
  obtain ⟨outcome, hsuits, hof⟩ := hsuited hp
  obtain rfl : sv = .value v := he
  exact Operation.reads_of_suits (List.of_mem_zip hp).1 (hsuits.of_value hof)

theorem answers_length (h : r.Suits o) : (r.answers o).length = (r.operation.loads o).length := by
  rw [Return.answers, List.length_map, List.length_zip, h.1.length_eq, Nat.min_self]

theorem answers_reads (h : r.Suits o) : ∀ v, .ok v ∈ r.answers o → r.operation.Reads v := by
  intro v hv
  obtain ⟨⟨l, sv⟩, hp, he⟩ := List.mem_map.1 hv
  exact h.reads (ofSettled_ok he ▸ (List.of_mem_zip hp).2)

theorem answer_eq (h : r.Suits o) : r.answer = r.operation.conclude o (r.answers o) := h.2

end Return.Suits

/-! ## Errors of operations -/

/-- whether an operation's error is that of a load: as it is, under the name of its slot, or because the load's failure
means that there is no token -/
def Error.ComesOf (e source : Error) : Prop :=
  e = source ∨ (∃ slot, e = .aggregation slot source) ∨ ∃ token, e = .notFound token ∧ isAbsence source = true

section

variable {answers : List (Except Error Value)} {e : Error}

/-- a number that is not read has failed -/
theorem amountOf_error (hlength : answers.length = 1)
    (hreads : ∀ v, .ok v ∈ answers → ∃ n, expectAmount v = .ok n) (h : amountOf answers = .error e) :
    .error e ∈ answers := by
  obtain ⟨a, rfl⟩ := List.length_eq_one_iff.1 hlength
  cases a with
  | error e' =>
    obtain rfl : e' = e := Except.error.inj h
    exact List.mem_singleton_self _
  | ok v =>
    obtain ⟨n, hn⟩ := hreads v (List.mem_singleton_self _)
    exact absurd (hn.symm.trans h) (by simp)

/-- a probe fails if its load did, and says that there is no token only if the node's answer means that -/
theorem probe_error {token : Address} (hlength : answers.length = 1)
    (hreads : ∀ v, .ok v ∈ answers → ∃ n, expectAmount v = .ok n) (h : probe token answers = .error e) :
    ∃ source, .error source ∈ answers ∧ (e = source ∨ e = .notFound token ∧ isAbsence source = true) := by
  simp only [probe] at h
  split at h
  · exact absurd h (by simp)
  · rename_i source hsource
    refine ⟨source, amountOf_error hlength hreads hsource, ?_⟩
    split_ifs at h with habsent
    · exact .inr ⟨(Except.error.inj h).symm, habsent⟩
    · exact .inl (Except.error.inj h).symm

/-- the settings fail only if a slot did, since each slot has been loaded -/
theorem settingsOf_error {o : Options} (hlength : answers.length = Defi.Slot.all.length)
    (hreads : ∀ v, .ok v ∈ answers → ∃ n, expectAmount v = .ok n) (h : settingsOf o answers = .error e) :
    ∃ slot source, .error source ∈ answers ∧ e = .aggregation slot source := by
  have hslots : (Defi.Slot.all.zip (answers.map fun a => a >>= expectAmount)).map Prod.fst = Defi.Slot.all :=
    List.map_fst_zip (by simp [hlength])
  cases hcollect : Defi.collect (Defi.Slot.all.zip (answers.map fun a => a >>= expectAmount)) with
  | error f =>
    simp only [settingsOf, Defi.aggregate, hcollect] at h
    refine ⟨f.slot, f.error, ?_, (Except.error.inj h).symm⟩
    obtain ⟨a, ha, hread⟩ := List.mem_map.1 (List.of_mem_zip (Defi.collect_error hcollect)).2
    cases a with
    | error source =>
      obtain rfl : source = f.error := Except.error.inj hread
      exact ha
    | ok v =>
      obtain ⟨n, hn⟩ := hreads v ha
      exact absurd (hn.symm.trans hread) (by simp)
  | ok values =>
    have hvalues : values.map Prod.fst = Defi.Slot.all := by
      rw [Defi.collect_ok hcollect, List.map_map] at hslots
      exact hslots
    obtain ⟨settings, hbuild⟩ := ((Defi.Draft.new o.defi).applyAll values).build_isOk_iff.2 fun slot => by
      rw [Defi.Draft.knows_applyAll, hvalues]
      cases slot <;> rfl
    rw [Defi.Draft.applyAll] at hbuild
    simp only [settingsOf, Defi.aggregate, hcollect, hbuild] at h
    exact absurd h (by simp)

/-- an operation ends with an error only if one of its loads did -/
theorem Operation.conclude_error {o : Options} {op : Operation} (hlength : answers.length = (op.loads o).length)
    (hreads : ∀ v, .ok v ∈ answers → op.Reads v) (h : op.conclude o answers = .error e) :
    ∃ source, .error source ∈ answers ∧ e.ComesOf source := by
  cases op with
  | balance | totalSupply | balanceOf | allowance =>
    exact ⟨e, amountOf_error hlength hreads (map_eq_error_iff.1 h), .inl rfl⟩
  | nonce account =>
    obtain ⟨a, rfl⟩ := List.length_eq_one_iff.1 hlength
    have hcount := map_eq_error_iff.1 h
    cases a with
    | error source => exact ⟨source, List.mem_singleton_self _, .inl (Except.error.inj hcount).symm⟩
    | ok v =>
      obtain ⟨n, hn⟩ := hreads v (List.mem_singleton_self _)
      exact absurd (hn.symm.trans hcount) (by simp)
  | token t =>
    obtain ⟨source, hsource, he⟩ := probe_error hlength hreads h
    exact ⟨source, hsource, he.imp_right fun he => .inr ⟨t, he⟩⟩
  | findToken t =>
    simp only [conclude] at h
    split at h
    · exact absurd h (by simp)
    · obtain ⟨source, hsource, he⟩ := probe_error hlength hreads h
      exact ⟨source, hsource, he.imp_right fun he => .inr ⟨t, he⟩⟩
  | logo token => exact absurd h (by simp [conclude])
  | defi =>
    obtain ⟨slot, source, hsource, he⟩ := settingsOf_error hlength hreads (map_eq_error_iff.1 h)
    exact ⟨source, hsource, .inr (.inl ⟨slot, he⟩)⟩

/-- that there is no token is the answer only if a load failed in a way that means it -/
theorem Operation.conclude_absence {o : Options} {op : Operation} (hlength : answers.length = (op.loads o).length)
    (hreads : ∀ v, .ok v ∈ answers → op.Reads v)
    (hkinds : ∀ source, .error source ∈ answers → source.isNotFound = false)
    (h : (∃ token, op.conclude o answers = .error (.notFound token)) ∨ op.conclude o answers = .ok .noToken) :
    ∃ source, .error source ∈ answers ∧ isAbsence source = true := by
  rcases h with ⟨token, h⟩ | h
  · obtain ⟨source, hsource, he⟩ := conclude_error hlength hreads h
    refine ⟨source, hsource, ?_⟩
    rcases he with rfl | ⟨slot, he⟩ | ⟨_, _, habsent⟩
    · exact absurd (hkinds _ hsource) (by simp [Error.isNotFound])
    · exact absurd he (by simp)
    · exact habsent
  -- no operation but the probe that may fail has this answer
  · cases op with
    | findToken t =>
      simp only [conclude] at h
      split at h
      · rename_i token hprobe
        obtain ⟨source, hsource, rfl | ⟨-, habsent⟩⟩ := probe_error hlength hreads hprobe
        · exact absurd (hkinds _ hsource) (by simp [Error.isNotFound])
        · exact ⟨source, hsource, habsent⟩
      · simp only [probe] at h
        split at h
        · exact absurd h (by simp)
        · split_ifs at h
    | token t =>
      simp only [conclude, probe] at h
      split at h
      · exact absurd h (by simp)
      · split_ifs at h
    | logo t => exact absurd h (by simp [conclude])
    | _ =>
      obtain ⟨_, -, h⟩ := map_eq_ok_iff.1 h
      exact absurd h (by simp)

end

/-! ## Runs -/

/-- **Counts and amounts are never taken for one another.** In every run of a repository, every stored value, every
value that a fill came to and every value that a caller was served has the shape that belongs under its key. Whatever a
caller of an operation comes away with can be read as the operation reads it, while the operation is under way and when
it returns. So every error of an operation is that of one of its loads, and the answer that there is no token rests on a
failure of the node. -/
theorem run_shapes (s : Setting) (acts : List Act) :
    let st := run s .new acts
    (∀ e ∈ st.cache.store.entries, e.key.Suits e.value) ∧
    (∀ f ∈ st.cache.fills, ∀ v, f.stage.outcome? = some (some (.ok v)) → f.key.Suits v) ∧
    (∀ g ∈ st.cache.callers, ∀ v, g.ticket = .served v → g.key.Suits v) ∧
    (∀ v ∈ st.visits, ∀ caller ∈ v.callers, ∀ value, st.cache.settled? caller = some (.value value) →
      v.operation.Reads value) ∧
    ∀ r ∈ st.returned,
      (∀ v, .value v ∈ r.settled → r.operation.Reads v) ∧
      (∀ e, r.answer = .error e → ∃ source, .error source ∈ r.answers s.options ∧ e.ComesOf source) ∧
      ((∃ token, r.answer = .error (.notFound token)) ∨ r.answer = .ok .noToken →
        ∃ e, .failed e ∈ r.settled ∧ e.isTransport = false) := by
  intro st
  have hcache : SuitedCache st.cache := run_suited s acts
  have hvisits : Attended s st := run_attended s acts
  refine ⟨fun e he => hcache.stored e he _ rfl, fun f hf v ho => hcache.outcomes f hf _ ho v rfl,
    fun g hg v hv => hcache.served g hg v hv v rfl, fun v hv caller hcaller value hvalue => ?_, fun r hr => ?_⟩
  · obtain ⟨l, hl, hstands⟩ := (hvisits.asked v hv).stands hcaller
    obtain ⟨outcome, hsuited, he⟩ := hstands.settled hcache hvalue
    exact Operation.reads_of_suits hl (hsuited.of_value he)
  · have hsuits : r.Suits s.options := run_returned_suits s acts r hr
    have hlength := hsuits.answers_length
    have hreads := hsuits.answers_reads
    have hsources : ∀ source, .error source ∈ r.answers s.options → source.isNotFound = false ∧
        (isAbsence source = true → ∃ e, .failed e ∈ r.settled ∧ e.isTransport = false) := by
      intro source hsource
      obtain ⟨⟨l, sv⟩, hp, he⟩ := List.mem_map.1 hsource
      obtain ⟨hkind, habsent⟩ := ofSettled_absence he
      refine ⟨hkind, fun h => ?_⟩
      obtain ⟨e, rfl, ht⟩ := habsent h
      exact ⟨e, (List.of_mem_zip hp).2, ht⟩
    refine ⟨fun v hv => hsuits.reads hv, fun e he => ?_, fun h => ?_⟩
    · exact Operation.conclude_error hlength hreads (hsuits.answer_eq ▸ he)
    · rw [hsuits.answer_eq] at h
      obtain ⟨source, hsource, habsent⟩ :=
        Operation.conclude_absence hlength hreads (fun source hs => (hsources source hs).1) h
      exact (hsources source hsource).2 habsent

end Repository

end ChainBridge
