/-
Probing for tokens.

A probe asks for the total supply of a token and tells from what that comes to whether there is one. Operations that ask
for the same loads can stand in for one another: a run in which they do is the same run but for what they answer
(`after_recast`). So every probe can be held against the total supply that would have been asked for in its place, in
the same run. `Probed` says what the one makes of the other, `Found` what the probe that may find nothing makes of the
probe that may not. An absence is not kept: a fill that fails stores nothing and lets go of its key (`reply_failure`),
and a probe that finds nothing stored and no fill to join asks the node (`AsksNode`) and waits for what that comes to.
-/
import Mathlib
import ChainBridge.Proofs.Repository.Events
import ChainBridge.Proofs.Repository.Shapes

namespace ChainBridge.Repository

/-! ## Operations in place of others -/

def Visit.recast (f : Operation → Operation) (v : Visit) : Visit := { v with operation := f v.operation }

/-- what an operation would have answered in place of the one that returned -/
def Return.recast (o : Options) (f : Operation → Operation) (r : Return) : Return :=
  ⟨r.id, f r.operation, r.settled, (f r.operation).answer o r.settled⟩

def St.recast (o : Options) (f : Operation → Operation) (st : St) : St :=
  { st with visits := st.visits.map (·.recast f), returned := st.returned.map (·.recast o f) }

/-- another operation starts -/
def Event.recast (f : Operation → Operation) : Event → Event
  | .own (.visit op) => .own (.visit (f op))
  | ev => ev

section

variable {s : Setting} {f : Operation → Operation}

theorem visit?_recast (st : St) (id : Nat) :
    (st.recast s.options f).visit? id = (st.visit? id).map (·.recast f) := by
  simp only [St.visit?, St.recast, List.find?_map]
  rfl

theorem Visit.next?_recast (hf : ∀ op, (f op).loads s.options = op.loads s.options) (v : Visit) :
    (v.recast f).next? s.options = v.next? s.options := by
  simp only [Visit.next?, Visit.recast, hf]

theorem leave_recast (st : St) (v : Visit) :
    (st.recast s.options f).leave (v.recast f) = (st.leave v).recast s.options f := by
  simp only [St.leave, St.recast, List.filter_map]
  rfl

/-- operations that ask for the same loads leave the same behind -/
theorem happen_recast (hf : ∀ op, (f op).loads s.options = op.loads s.options) (st : St) (ev : Event) :
    happen s (st.recast s.options f) (ev.recast f) = (happen s st ev).recast s.options f := by
  cases ev with
  | other act => rfl
  | own act =>
    cases act with
    | visit op =>
      simp only [happen, Event.recast, step, St.visit, St.recast, List.map_append]
      rfl
    | ask id =>
      simp only [happen, Event.recast, step, St.ask, visit?_recast]
      cases hv : st.visit? id with
      | none => rfl
      | some v =>
        simp only [Option.map_some, Visit.next?_recast hf]
        cases v.next? s.options with
        | none => rfl
        | some l =>
          simp only [St.recast, List.map_map]
          congr 1
          refine List.map_congr_left fun w _ => ?_
          by_cases hid : w.id = id
          · simp [Visit.recast, hid]
          · simp [Visit.recast, hid]
    | resume id =>
      simp only [happen, Event.recast, step, St.resume, visit?_recast]
      cases hv : st.visit? id with
      | none => rfl
      | some v =>
        have hsettled : Cache.settledAll? (st.recast s.options f).cache (v.recast f).callers =
            Cache.settledAll? st.cache v.callers := rfl
        simp only [Option.map_some, Visit.next?_recast hf, hsettled]
        cases v.next? s.options with
        | some l => rfl
        | none =>
          cases Cache.settledAll? st.cache v.callers with
          | none => rfl
          | some settled =>
            simp only [leave_recast]
            simp only [St.recast, List.map_append]
            rfl
    | giveUp id =>
      simp only [happen, Event.recast, step, St.giveUp, visit?_recast]
      cases hv : st.visit? id with
      | none => rfl
      | some v => exact leave_recast st v
    | begin fill =>
      simp only [happen, Event.recast, step, St.begin, St.recast]
      split <;> rfl
    | reply fill result =>
      simp only [happen, Event.recast, step, St.reply, St.recast]
      split <;> rfl
    | _ => rfl

theorem after_recast (hf : ∀ op, (f op).loads s.options = op.loads s.options) (events : List Event) :
    after s (events.map (·.recast f)) = (after s events).recast s.options f := by
  induction events using List.reverseRecOn with
  | nil => rfl
  | append_singleton events last ih =>
    rw [List.map_append, List.map_singleton, after_snoc, after_snoc, ih]
    exact happen_recast hf (after s events) last

end

/-! ## What a probe makes of the supply -/

/-- the key under which the total supply of a token is kept -/
def supplyKey (token : Address) : Key := ⟨token, .totalSupply, none⟩

/-- the total supply that could be asked for in place of a probe -/
def Operation.asSupply : Operation → Operation
  | .token t | .findToken t => .totalSupply t
  | op => op

/-- the probe that fails where there is no token, in place of the one that does not -/
def Operation.asProbe : Operation → Operation
  | .findToken t => .token t
  | op => op

theorem Operation.asSupply_loads (o : Options) (op : Operation) : op.asSupply.loads o = op.loads o := by
  cases op <;> rfl

/-- a probe has one load, which is that of the total supply -/
theorem Operation.loads_of_asSupply (o : Options) {op : Operation} {token : Address}
    (hop : op.asSupply = .totalSupply token) : op.loads o = [supplyLoad o token] := by
  rw [← op.asSupply_loads, hop]
  rfl

theorem Operation.asProbe_loads (o : Options) (op : Operation) : op.asProbe.loads o = op.loads o := by
  cases op <;> rfl

/-- whether a probe made the right thing of the supply -/
structure Probed (token : Address) (supply probe : Except Error Answer) : Prop where
  handle : probe = .ok (.handle token) ↔ ∃ n, supply = .ok (.amount n)
  absence : probe = .error (.notFound token) ↔
    ∃ e, supply = .error (.rpc e) ∧ (e.kind = .remote ∨ e.kind = .decode)
  cases : probe = .ok (.handle token) ∨ probe = .error (.notFound token) ∨
    ∃ e, supply = .error e ∧ probe = .error e ∧
      ((∃ cause, e = .rpc cause ∧ cause.kind = .transport) ∨ e = .cache (.fetchAbandoned (supplyKey token).debug))

/-- whether a probe that may find nothing agrees with one that may not -/
structure Found (token : Address) (probe find : Except Error Answer) : Prop where
  absence : find = .ok .noToken ↔ probe = .error (.notFound token)
  same : probe ≠ .error (.notFound token) → find = probe

theorem isAbsence_rpc_iff {e : Rpc.Error} : isAbsence (.rpc e) = true ↔ e.kind = .remote ∨ e.kind = .decode := by
  simp only [isAbsence, Rpc.Error.isTransport]
  cases e.kind <;> decide

section

variable {o : Options} {token : Address} {settled : List (Cache.Settled Value Rpc.Error)}

/-- what the load of the total supply came to -/
def supplied (o : Options) (token : Address) (settled : List (Cache.Settled Value Rpc.Error)) :
    List (Except Error Value) :=
  ([supplyLoad o token].zip settled).map fun (l, sv) => ofSettled l.key sv

theorem answer_totalSupply : (Operation.totalSupply token).answer o settled =
    (amountOf (supplied o token settled)).map .amount := rfl

theorem answer_token : (Operation.token token).answer o settled = probe token (supplied o token settled) := rfl

theorem answer_findToken : (Operation.findToken token).answer o settled =
    match probe token (supplied o token settled) with
    | .error (.notFound _) => .ok .noToken
    | r => r := rfl

/-- the total supply fails as the node does, or because its fill was lost -/
theorem supplied_error {e : Error} (h : amountOf (supplied o token settled) = .error e) :
    (∃ cause, e = .rpc cause) ∨ e = .cache (.fetchAbandoned (supplyKey token).debug) := by
  cases settled with
  | nil => exact .inl ⟨_, (Except.error.inj h).symm⟩
  | cons sv rest =>
    cases sv with
    | value v =>
      cases v with
      | amount n => exact absurd h (by simp [supplied, amountOf, single, ofSettled, bind, Except.bind, expectAmount])
      | count n => exact .inl ⟨_, (Except.error.inj h).symm⟩
    | failed cause => exact .inl ⟨cause, (Except.error.inj h).symm⟩
    | abandoned => exact .inr (Except.error.inj h).symm

namespace Probed

theorem of_amount (token : Address) (n : Nat) : Probed token (.ok (.amount n)) (.ok (.handle token)) :=
  ⟨iff_of_true rfl ⟨n, rfl⟩, iff_of_false (by simp) (by simp), .inl rfl⟩

theorem of_absence {cause : Rpc.Error} (h : isAbsence (.rpc cause) = true) :
    Probed token (.error (.rpc cause)) (.error (.notFound token)) :=
  ⟨iff_of_false (by simp) (by simp), iff_of_true rfl ⟨cause, rfl, isAbsence_rpc_iff.1 h⟩, .inr (.inl rfl)⟩

theorem of_transport {cause : Rpc.Error} (h : isAbsence (.rpc cause) = false) :
    Probed token (.error (.rpc cause)) (.error (.rpc cause)) := by
  have hkind : ¬(cause.kind = .remote ∨ cause.kind = .decode) := by
    rw [← isAbsence_rpc_iff, h]
    simp
  have htransport : cause.kind = .transport := by
    cases hk : cause.kind with
    | transport => rfl
    | remote => exact absurd (.inl hk) hkind
    | decode => exact absurd (.inr hk) hkind
  refine ⟨iff_of_false (by simp) (by simp), iff_of_false (by simp) ?_,
    .inr (.inr ⟨_, rfl, rfl, .inl ⟨cause, rfl, htransport⟩⟩)⟩
  rintro ⟨e, he, hk⟩
  obtain rfl := Error.rpc.inj (Except.error.inj he)
  exact hkind hk

theorem of_lost (token : Address) : Probed token (.error (.cache (.fetchAbandoned (supplyKey token).debug)))
    (.error (.cache (.fetchAbandoned (supplyKey token).debug))) :=
  ⟨iff_of_false (by simp) (by simp), iff_of_false (by simp) (by simp), .inr (.inr ⟨_, rfl, rfl, .inr rfl⟩)⟩

/-- a probe does not say of another token that it is not found -/
theorem eq_of_notFound {other : Address} {supply probe : Except Error Answer} (h : Probed token supply probe)
    (he : probe = .error (.notFound other)) : other = token := by
  rcases h.cases with hcase | hcase | ⟨e, -, hcase, hkind⟩
  · exact absurd (hcase.symm.trans he) (by simp)
  · exact (Error.notFound.inj (Except.error.inj (hcase.symm.trans he))).symm
  · obtain rfl := Except.error.inj (hcase.symm.trans he)
    exact absurd hkind (by simp)

end Probed

theorem answer_probed (o : Options) (token : Address) (settled : List (Cache.Settled Value Rpc.Error)) :
    Probed token ((Operation.totalSupply token).answer o settled) ((Operation.token token).answer o settled) := by
  rw [answer_totalSupply, answer_token]
  simp only [probe]
  cases h : amountOf (supplied o token settled) with
  | ok n => exact .of_amount token n
  | error e =>
    obtain ⟨cause, rfl⟩ | rfl := supplied_error h
    · cases habsent : isAbsence (.rpc cause) with
      | true =>
        simp only [habsent, if_true]
        exact .of_absence habsent
      | false =>
        simp only [habsent, Bool.false_eq_true, if_false]
        exact .of_transport habsent
    · exact .of_lost token

theorem answer_found (o : Options) (token : Address) (settled : List (Cache.Settled Value Rpc.Error)) :
    Found token ((Operation.token token).answer o settled) ((Operation.findToken token).answer o settled) := by
  have hprobed := answer_probed o token settled
  rw [answer_token] at hprobed
  rw [answer_token, answer_findToken]
  rcases hprobed.cases with h | h | ⟨e, -, h, hkind⟩
  · rw [h]
    exact ⟨iff_of_false (by simp) (by simp), fun _ => rfl⟩
  · rw [h]
    exact ⟨iff_of_true rfl rfl, fun hne => absurd rfl hne⟩
  · rw [h]
    obtain ⟨cause, rfl, -⟩ | rfl := hkind
    · exact ⟨iff_of_false (by simp) (by simp), fun _ => rfl⟩
    · exact ⟨iff_of_false (by simp) (by simp), fun _ => rfl⟩

end

/-! ## Nothing else is not found -/

section

variable {token : Address}

/-- what is read of an answer is not found only if the answer was -/
theorem read_ne_notFound {answers : List (Except Error Value)} {T : Type} {read : Value → Except Error T}
    (hread : ∀ v, read v ≠ .error (.notFound token)) (h : .error (.notFound token) ∉ answers) :
    single answers >>= read ≠ .error (.notFound token) := by
  intro he
  match answers with
  | [] => exact absurd he (by simp [single, bind, Except.bind])
  | [.error e] => exact h (by rw [Except.error.inj he]; exact List.mem_singleton_self _)
  | [.ok v] => exact hread v he
  | _ :: _ :: _ => exact absurd he (by simp [single, bind, Except.bind])

theorem expectAmount_ne_notFound (v : Value) : expectAmount v ≠ .error (.notFound token) := by
  cases v <;> simp [expectAmount]

theorem expectCount_ne_notFound (v : Value) : expectCount v ≠ .error (.notFound token) := by
  cases v <;> simp [expectCount]

/-- the settings fail by the slot -/
theorem settingsOf_ne_notFound (o : Options) (answers : List (Except Error Value)) :
    settingsOf o answers ≠ .error (.notFound token) := by
  simp only [settingsOf]
  split
  · simp
  · split <;> simp

/-- of all operations only the probe of a token says that it is not found -/
theorem Operation.answer_notFound {o : Options} {op : Operation} {settled : List (Cache.Settled Value Rpc.Error)}
    (h : op.answer o settled = .error (.notFound token)) : op = .token token := by
  have hloads : .error (.notFound token) ∉ ((op.loads o).zip settled).map fun (l, sv) => ofSettled l.key sv := by
    intro hmem
    obtain ⟨⟨l, sv⟩, -, he⟩ := List.mem_map.1 hmem
    exact absurd (ofSettled_absence he).1 (by simp [Error.isNotFound])
  cases op with
  | balance | totalSupply | balanceOf | allowance =>
    exact absurd (map_eq_error_iff.1 h) (read_ne_notFound expectAmount_ne_notFound hloads)
  | nonce account => exact absurd (map_eq_error_iff.1 h) (read_ne_notFound expectCount_ne_notFound hloads)
  | token t =>
    obtain rfl := (answer_probed o t settled).eq_of_notFound h
    rfl
  | findToken t =>
    have hfound := answer_found o t settled
    by_cases hprobe : (Operation.token t).answer o settled = .error (.notFound t)
    · exact absurd ((hfound.absence.2 hprobe).symm.trans h) (by simp)
    · have hsame := (hfound.same hprobe).symm.trans h
      obtain rfl := (answer_probed o t settled).eq_of_notFound hsame
      exact absurd hsame hprobe
  | logo t => exact absurd h (by simp [answer, conclude])
  | defi => exact absurd (map_eq_error_iff.1 h) (settingsOf_ne_notFound o _)

end

/-! ## What is not stored -/

/-- a fill that fails stores nothing and lets go of its key -/
theorem reply_failure (s : Setting) {st : St} (hsingle : Cache.Single st.cache)
    {f : Cache.Fill Key Value Rpc.Error Rpc.Query} (hf : f ∈ st.cache.fills) (hrun : f.stage = .running)
    {result : Except Rpc.Error Json} {e : Rpc.Error} (he : f.job.conclude s.ns result = .error e) :
    (step s st (.reply f.id result)).cache.store.entries = st.cache.store.entries ∧
    (step s st (.reply f.id result)).cache.store.filling? f.key = none := by
  have hown := hsingle.filling?_of_holds hf (by rw [hrun]; rfl)
  have hfill := Cache.fill?_of_mem hsingle.ids hf
  obtain ⟨id, key, ttl, q, stage⟩ := f
  obtain rfl : stage = .running := hrun
  have hstore : (step s st (.reply id result)).cache.store = st.cache.store.release key id := by
    have hcounted : ∀ metrics, Cache.St.fill? { st.cache with metrics := metrics } id =
        some ⟨id, key, ttl, q, .running⟩ := fun _ => hfill
    simp only [step, St.reply, hfill, Cache.St.finish, hcounted, he]
    rfl
  rw [hstore]
  exact ⟨Cache.Store.release_entries _ _ _, Cache.Store.filling?_release hown⟩

/-! ## Asking again -/

/-- a load under a key that has nothing stored that is alive, and that no fill holds, is asked of the node -/
theorem ask_leads (s : Setting) {st : St} (hsingle : Cache.Single st.cache) {v : Visit} (hv : st.visit? v.id = some v)
    {l : Load} (hnext : v.next? s.options = some l)
    (hstale : ∀ e ∈ st.cache.store.entries, e.key = l.key → Cache.isExpired e.expiresAt st.cache.now = true)
    (hfree : ∀ f ∈ st.cache.fills, f.key = l.key → f.stage.holds = false) :
    (step s st (.ask v.id)).cache.fills =
      st.cache.fills ++ [⟨st.cache.store.nextFill + 1, l.key, l.ttl, l.job, .queued⟩] ∧
    (step s st (.ask v.id)).cache.callers =
      st.cache.callers ++ [⟨st.cache.nextCaller, l.key, .awaiting (st.cache.store.nextFill + 1)⟩] := by
  have hcache : (step s st (.ask v.id)).cache = (st.cache.fetch s.setup l.key l.ttl l.job).1 := by
    simp only [step, St.ask, hv, hnext]
  have hfilling : st.cache.store.filling? l.key = none := by
    cases hf : st.cache.store.filling? l.key with
    | none => rfl
    | some fill =>
      obtain ⟨f, hmem, hholds, hkey, -⟩ := Cache.St.mem_holders.1 (hsingle.filling?_eq_some_iff.1 hf)
      exact absurd (hholds.symm.trans (hfree f hmem hkey)) (by simp)
  obtain ⟨ticket, hadmits, hcallers⟩ := Cache.fetch_admits s.setup st.cache l.key l.ttl l.job
  rw [hcache]
  generalize hfills : (st.cache.fetch s.setup l.key l.ttl l.job).1.fills = fills at hadmits ⊢
  generalize (st.cache.fetch s.setup l.key l.ttl l.job).1.store.marks = marks at hadmits
  cases hadmits with
  | hit value hhit =>
    obtain ⟨e, he, hlive, -⟩ := Cache.Store.lookup_hit_iff.1 hhit
    obtain ⟨hmem, hkey⟩ := Cache.Store.find?_some he
    exact absurd (hlive.symm.trans (hstale e hmem hkey)) (by simp)
  | join fill _ hjoin => exact absurd (hjoin.symm.trans hfilling) (by simp)
  | lead _ _ => exact ⟨rfl, hcallers⟩

/-- a fill sends its request when it begins -/
theorem begin_sends (s : Setting) {st : St} (hsingle : Cache.Single st.cache)
    {f : Cache.Fill Key Value Rpc.Error Rpc.Query} (hf : f ∈ st.cache.fills) (hqueued : f.stage = .queued) :
    (step s st (.begin f.id)).sent = st.sent ++ [f.job.request s.ns] := by
  have hfill := Cache.fill?_of_mem hsingle.ids hf
  obtain ⟨id, key, ttl, q, stage⟩ := f
  obtain rfl : stage = .queued := hqueued
  simp only [step, St.begin, hfill]

/-- an operation that has asked for all, if it is still under way, has one caller, which waits for a fill -/
structure Waits (s : Setting) (st : St) (id caller fill : Nat) : Prop where
  started : id < st.nextVisit
  asked : ∀ v ∈ st.visits, v.id = id → v.callers = [caller] ∧ v.next? s.options = none
  told : caller < st.cache.nextCaller ∧ ∀ g ∈ st.cache.callers, g.id = caller → g.ticket = .awaiting fill

namespace Waits

variable {s : Setting} {st : St} {id caller fill : Nat}

theorem step (h : Waits s st id caller fill) (act : Act) : Waits s (Repository.step s st act) id caller fill := by
  have htold : caller < (Repository.step s st act).cache.nextCaller ∧
      ∀ g ∈ (Repository.step s st act).cache.callers, g.id = caller → g.ticket = .awaiting fill := by
    refine step_cache (P := fun cache => caller < cache.nextCaller ∧
      ∀ g ∈ cache.callers, g.id = caller → g.ticket = .awaiting fill) ?_ ?_ h.told
    · intro _ cache metrics hcache
      exact hcache
    · intro cache a _ hcache
      exact Cache.step_caller s.setup a hcache
  cases step_visits s st act with
  | quiet _ _ hvisits hnext _ => exact ⟨hnext ▸ h.started, fun v hv => h.asked v (hvisits ▸ hv), htold⟩
  | returned v settled _ _ _ _ he =>
    rw [he] at htold ⊢
    exact ⟨h.started, fun w hw => h.asked w (List.mem_filter.1 hw).1, htold⟩
  | left v _ _ he =>
    rw [he] at htold ⊢
    exact ⟨h.started, fun w hw => h.asked w (List.mem_filter.1 hw).1, htold⟩
  | started op _ he =>
    rw [he] at htold ⊢
    refine ⟨Nat.lt_succ_of_lt h.started, fun v hv hid => ?_, htold⟩
    rcases List.mem_append.1 hv with hv | hv
    · exact h.asked v hv hid
    · obtain rfl := List.mem_singleton.1 hv
      exact absurd hid h.started.ne'
  | asked v l _ hv hnext _ hvisits hsame _ =>
    refine ⟨hsame ▸ h.started, fun w' hw' hid => ?_, htold⟩
    rw [hvisits] at hw'
    obtain ⟨w, hw, rfl⟩ := List.mem_map.1 hw'
    -- an operation that asks for more is another one
    have hother : v.id ≠ id := fun he => absurd (hnext.symm.trans (h.asked v (visit?_some hv).1 he).2) (by simp)
    split at hid
    · rename_i hwid
      have he : w.id = v.id := by simpa using hwid
      exact absurd (he.symm.trans hid) hother
    · rename_i hwid
      rw [if_neg hwid]
      exact h.asked w hw hid

theorem happen (h : Waits s st id caller fill) (ev : Event) :
    Waits s (Repository.happen s st ev) id caller fill := by
  cases ev with
  | own act => exact h.step act
  | other act => exact ⟨h.started, h.asked, Cache.step_caller s.setup act h.told⟩

theorem after {events : List Event} (h : Waits s (after s events) id caller fill) (later : List Event) :
    Waits s (Repository.after s (events ++ later)) id caller fill := by
  induction later using List.reverseRecOn with
  | nil => simpa using h
  | append_singleton later last ih =>
    rw [← List.append_assoc, after_snoc]
    exact ih.happen last

/-- such an operation comes away with what the fill came to -/
theorem settled (h : Waits s st id caller fill) {v : Visit} (hv : st.visit? id = some v)
    {settled : List (Cache.Settled Value Rpc.Error)}
    (hs : List.Forall₂ (fun caller sv => st.cache.settled? caller = some sv) v.callers settled) :
    ∃ f sv, st.cache.fill? fill = some f ∧ f.stage.settled? = some sv ∧ settled = [sv] := by
  obtain ⟨hmem, hid⟩ := visit?_some hv
  rw [(h.asked v hmem hid).1] at hs
  obtain ⟨sv, others, hsv, hothers, rfl⟩ := List.forall₂_cons_left_iff.1 hs
  obtain rfl := List.forall₂_nil_left_iff.1 hothers
  obtain ⟨g, hg, hgid, ⟨value, hticket, -⟩ | ⟨fill', f, hticket, hf, hstage⟩⟩ := Cache.settled?_eq_some hsv
  · exact absurd (hticket.symm.trans (h.told.2 g hg hgid)) (by simp)
  · obtain rfl := Cache.Ticket.awaiting.inj (hticket.symm.trans (h.told.2 g hg hgid))
    exact ⟨f, sv, hf, hstage, rfl⟩

end Waits

/-- an operation that asks for its only load waits for the fill that it was told to lead -/
theorem ask_waits (s : Setting) {st : St} (hattended : Attended s st) {v : Visit} (hv : st.visit? v.id = some v)
    {l : Load} (hloads : v.operation.loads s.options = [l]) (hcallers : v.callers = []) {fill : Nat}
    (hjoined : (step s st (.ask v.id)).cache.callers =
      st.cache.callers ++ [⟨st.cache.nextCaller, l.key, .awaiting fill⟩]) :
    Waits s (step s st (.ask v.id)) v.id st.cache.nextCaller fill := by
  obtain ⟨hmem, -⟩ := visit?_some hv
  have hnext : v.next? s.options = some l := by rw [Visit.next?, hloads, hcallers]; rfl
  obtain ⟨hcaller, hcount⟩ := Cache.fetch_caller s.setup st.cache l.key l.ttl l.job
  have hstep : step s st (.ask v.id) = { st with
      cache := (st.cache.fetch s.setup l.key l.ttl l.job).1
      visits := st.visits.map fun w => if w.id == v.id then w.joined st.cache.nextCaller else w } := by
    simp only [step, St.ask, hv, hnext, hcaller]
    rfl
  have hattended' := hattended.step (.ask v.id)
  rw [hstep] at hjoined hattended' ⊢
  refine ⟨hattended.fresh v hmem, ?_, ?_, ?_⟩
  · intro w' hw' hid
    have hasked : v.joined st.cache.nextCaller ∈ st.visits.map fun w =>
        if w.id == v.id then w.joined st.cache.nextCaller else w :=
      List.mem_map.2 ⟨v, hmem, by simp⟩
    obtain rfl := hattended'.eq_of_id hw' hasked hid
    simp only [Visit.joined, Visit.next?, hcallers, hloads]
    exact ⟨rfl, rfl⟩
  · rw [hcount]
    exact Nat.lt_succ_self _
  · intro g hg hid
    rw [hjoined, List.mem_append, List.mem_singleton] at hg
    rcases hg with hg | rfl
    · have hlt := hattended.below g hg
      omega
    · rfl

/-- whether an operation that asks for a load asks the node: it adds a fill, which sends the request when it begins, and
comes away with nothing but what that fill came to -/
structure AsksNode (s : Setting) (events : List Event) (v : Visit) (l : Load) (fill : Nat) : Prop where
  queued : (after s (events ++ [.own (.ask v.id)])).cache.fills =
    (after s events).cache.fills ++ [⟨fill, l.key, l.ttl, l.job, .queued⟩]
  sends : (after s (events ++ [.own (.ask v.id), .own (.begin fill)])).sent =
    (after s events).sent ++ [l.job.request s.ns]
  answered : ∀ later w settled, (after s (events ++ .own (.ask v.id) :: later)).visit? v.id = some w →
    List.Forall₂ (fun caller sv => (after s (events ++ .own (.ask v.id) :: later)).cache.settled? caller = some sv)
      w.callers settled →
    ∃ f sv, (after s (events ++ .own (.ask v.id) :: later)).cache.fill? fill = some f ∧
      f.stage.settled? = some sv ∧ settled = [sv]

/-- an operation asks the node for its only load if nothing under its key is alive and no fill holds the key -/
theorem asks_node (s : Setting) (events : List Event) {v : Visit} (hv : (after s events).visit? v.id = some v)
    {l : Load} (hloads : v.operation.loads s.options = [l]) (hcallers : v.callers = [])
    (hstale : ∀ e ∈ (after s events).cache.store.entries, e.key = l.key →
      Cache.isExpired e.expiresAt (after s events).cache.now = true)
    (hfree : ∀ f ∈ (after s events).cache.fills, f.key = l.key → f.stage.holds = false) :
    AsksNode s events v l ((after s events).cache.store.nextFill + 1) := by
  have hnext : v.next? s.options = some l := by
    rw [Visit.next?, hloads, hcallers]
    rfl
  obtain ⟨hfills, hjoined⟩ := ask_leads s (after_holding s events).single hv hnext hstale hfree
  refine ⟨?_, ?_, ?_⟩
  · rw [after_snoc]
    exact hfills
  · have hsent : (after s (events ++ [.own (.ask v.id)])).sent = (after s events).sent := by
      simp only [after_snoc, happen, step, St.ask, hv, hnext]
    have hqueued : ⟨(after s events).cache.store.nextFill + 1, l.key, l.ttl, l.job, .queued⟩ ∈
        (after s (events ++ [.own (.ask v.id)])).cache.fills := by
      rw [after_snoc, happen, hfills]
      exact List.mem_append_right _ (List.mem_singleton_self _)
    have hsplit : events ++ [.own (.ask v.id), .own (.begin ((after s events).cache.store.nextFill + 1))] =
        events ++ [.own (.ask v.id)] ++ [.own (.begin ((after s events).cache.store.nextFill + 1))] := by simp
    rw [hsplit, after_snoc, ← hsent]
    exact begin_sends s (after_holding s _).single hqueued rfl
  · intro later w settled hw hsettled
    have hwaits : Waits s (after s (events ++ [.own (.ask v.id)])) v.id (after s events).cache.nextCaller
        ((after s events).cache.store.nextFill + 1) := by
      rw [after_snoc]
      exact ask_waits s (after_attended s events) hv hloads hcallers hjoined
    have hlater := hwaits.after later
    rw [List.append_assoc, List.singleton_append] at hlater
    exact hlater.settled hw hsettled

/-- **A probe tells what the total supply tells about the token.** Whatever the node replies, and whatever others do to
the cache:
- a probe that returned is held against the total supply that would have been asked for in its place, in the same run:
  it answers with the handle if and only if that is an amount, it says that there is no token if and only if that is an
  error of the node about what was asked, and it fails as that does otherwise, which is when the node could not be
  reached or the fill was lost. The probe that may find nothing does so just where the other says that there is no
  token, and has the same answer otherwise;
- a probe whose caller has come away returns;
- no other operation says that there is no token;
- a fill that fails stores nothing and leaves its key free; and a probe that asks while nothing under the key is alive,
  and no fill holds it, asks the node. -/
theorem probes_classified (s : Setting) (events : List Event) :
    let st := after s events
    (∀ r ∈ st.returned, ∀ token, r.operation = .token token →
      ∃ supply ∈ (after s (events.map (·.recast Operation.asSupply))).returned, supply.id = r.id ∧
        supply.operation = .totalSupply token ∧ supply.settled = r.settled ∧ Probed token supply.answer r.answer) ∧
    (∀ r ∈ st.returned, ∀ token, r.operation = .findToken token →
      ∃ probe ∈ (after s (events.map (·.recast Operation.asProbe))).returned, probe.id = r.id ∧
        probe.operation = .token token ∧ probe.settled = r.settled ∧ Found token probe.answer r.answer) ∧
    (∀ v, st.visit? v.id = some v → (∃ token, v.operation.asSupply = .totalSupply token) → v.callers.length = 1 →
      (∀ caller ∈ v.callers, (st.cache.settled? caller).isSome = true) →
      ∃ settled answer, List.Forall₂ (fun caller sv => st.cache.settled? caller = some sv) v.callers settled ∧
        (step s st (.resume v.id)).returned = st.returned ++ [⟨v.id, v.operation, settled, answer⟩]) ∧
    (∀ r ∈ st.returned, ∀ token, r.answer = .error (.notFound token) → r.operation = .token token) ∧
    (∀ f ∈ st.cache.fills, f.stage = .running → ∀ result e, f.job.conclude s.ns result = .error e →
      (step s st (.reply f.id result)).cache.store.entries = st.cache.store.entries ∧
      ∀ g ∈ (step s st (.reply f.id result)).cache.fills, g.key = f.key → g.stage.holds = false) ∧
    ∀ v token, st.visit? v.id = some v → v.operation.asSupply = .totalSupply token → v.callers = [] →
      (∀ e ∈ st.cache.store.entries, e.key = supplyKey token → Cache.isExpired e.expiresAt st.cache.now = true) →
      (∀ f ∈ st.cache.fills, f.key = supplyKey token → f.stage.holds = false) →
      ∃ fill, AsksNode s events v (supplyLoad s.options token) fill := by
  intro st
  have hsingle : Cache.Single st.cache := (after_holding s events).single
  have hanswer : ∀ r ∈ st.returned, r.answer = r.operation.answer s.options r.settled := by
    intro r hr
    obtain ⟨pre, post, -, hbrought⟩ := returned_brought s events r hr
    exact hbrought.answer
  have hrecast : ∀ f : Operation → Operation, (∀ op, (f op).loads s.options = op.loads s.options) →
      ∀ r ∈ st.returned, r.recast s.options f ∈ (after s (events.map (·.recast f))).returned := by
    intro f hf r hr
    rw [after_recast hf]
    exact List.mem_map_of_mem hr
  refine ⟨?_, ?_, ?_, ?_, ?_, ?_⟩
  · intro r hr token hop
    refine ⟨_, hrecast _ (Operation.asSupply_loads s.options) r hr, rfl, ?_, rfl, ?_⟩
    · rw [Return.recast, hop]
      rfl
    · rw [hanswer r hr, Return.recast, hop]
      exact answer_probed s.options token r.settled
  · intro r hr token hop
    refine ⟨_, hrecast _ (Operation.asProbe_loads s.options) r hr, rfl, ?_, rfl, ?_⟩
    · rw [Return.recast, hop]
      rfl
    · rw [hanswer r hr, Return.recast, hop]
      exact answer_found s.options token r.settled
  · rintro v hv ⟨token, hop⟩ hlength hcame
    have hnext : v.next? s.options = none := by
      rw [Visit.next?, Operation.loads_of_asSupply s.options hop, hlength]
      rfl
    obtain ⟨settled, hall, hreturns⟩ := resume_returns s hv hnext hcame
    exact ⟨settled, _, hall, hreturns⟩
  · intro r hr token h
    rw [hanswer r hr] at h
    exact Operation.answer_notFound h
  · intro f hf hrun result e he
    obtain ⟨hentries, hfree⟩ := reply_failure s hsingle hf hrun he
    have hsingle' : Cache.Single (step s st (.reply f.id result)).cache := by
      have hafter := (after_holding s (events ++ [.own (.reply f.id result)])).single
      rwa [after_snoc] at hafter
    refine ⟨hentries, ?_⟩
    intro g hg hkey
    exact hsingle'.not_holds hfree hg hkey
  · intro v token hv hop hcallers hstale hfree
    exact ⟨_, asks_node s events hv (Operation.loads_of_asSupply s.options hop) hcallers hstale hfree⟩

/-- a token without a contract is probed in both ways, and the second probe shares the fill of the first one -/
def bareProbes : List Event :=
  List.map .own [.visit (.token .zero), .visit (.findToken .zero), .ask 1, .ask 2, .begin 1,
    .reply 1 (.error (.remote 3 "no code")), .tell 1, .resume 1]

/-- the first probe has said that there is no token, the second one returns without one, and a third one would ask the
node again -/
theorem bareProbes_return :
    let st := after .plain bareProbes
    st.returned.map (·.answer) = [.error (.notFound .zero)] ∧
    (∃ settled, (step .plain st (.resume 2)).returned =
      st.returned ++ [⟨2, .findToken .zero, settled, .ok .noToken⟩]) ∧
    ∃ fill, AsksNode .plain (bareProbes ++ [.own (.visit (.token .zero))]) ⟨3, .token .zero, []⟩
      (supplyLoad Setting.plain.options .zero) fill := by
  intro st
  obtain ⟨-, -, hreturns, -⟩ := probes_classified .plain bareProbes
  obtain ⟨-, -, -, -, -, hasks⟩ := probes_classified .plain (bareProbes ++ [.own (.visit (.token .zero))])
  obtain ⟨settled, answer, -, hreturned⟩ := hreturns ⟨2, .findToken .zero, [2]⟩ rfl ⟨.zero, rfl⟩ rfl (by decide)
  have hanswer : (step .plain st (.resume 2)).returned.map (·.answer) = [.error (.notFound .zero), .ok .noToken] := rfl
  have hfirst : st.returned.map (·.answer) = [.error (.notFound .zero)] := rfl
  rw [hreturned, List.map_append, hfirst] at hanswer
  obtain rfl : answer = _ := List.head_eq_of_cons_eq (List.tail_eq_of_cons_eq hanswer)
  exact ⟨hfirst, ⟨settled, hreturned⟩, hasks _ .zero rfl rfl rfl (by decide) (by decide)⟩

end ChainBridge.Repository
