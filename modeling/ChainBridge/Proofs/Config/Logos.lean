/-
Tables of logos, and the order in which they are read.

The keys of a table are texts. Texts that differ in case name one token, so a table whose keys are all different may
have more than one logo for it, and it may have more than one key that is no address. A table is read entry by entry
in whatever order its entries come: of the logos of a token the last one counts (`latestLogo?`), and reading ends at the
first key that is no address.

- `order_decides`: what an order of the entries comes to, and which tables come to the same in every order.
- `spellings_contend`: the smallest table that does not.
-/
import Mathlib
import ChainBridge.Proofs.Config.Validity
import ChainBridge.Proofs.Defi.Slots

namespace ChainBridge

namespace Repository.Logos

/-- a logo that is put into a table is that of its own token and of no other -/
theorem lookup_enter (table : List (Address × String)) (token : Address) (url : String) (other : Address) :
    (enter table token url).lookup other = if other = token then some url else table.lookup other := by
  induction table with
  | nil =>
    by_cases h : other = token
    · simp [enter, h]
    · simp [enter, h, List.lookup_cons, beq_false_of_ne h]
  | cons entry rest ih =>
    obtain ⟨t, u⟩ := entry
    rw [enter]
    by_cases ht : t = token
    · subst ht
      by_cases h : other = t
      · simp [h]
      · simp [h, List.lookup_cons, beq_false_of_ne h]
    · rw [if_neg ht]
      by_cases h : other = t
      · subst h
        simp [ht]
      · simp [List.lookup_cons, beq_false_of_ne h, ih]

end Repository.Logos

namespace Config

open Repository (Logos)

/-! ## Reading a table in order -/

/-- whether a key is the text of an address -/
def Readable (entry : String × String) : Prop := ∃ a, Address.parse entry.1 = .ok a

instance (entry : String × String) : Decidable (Readable entry) :=
  match h : Address.parse entry.1 with
  | .ok a => isTrue ⟨a, h⟩
  | .error _ => isFalse fun ⟨_, ha⟩ => nomatch h.symm.trans ha

/-- a key that is no address has a fault -/
theorem not_readable_iff {entry : String × String} :
    ¬Readable entry ↔ ∃ fault, Address.parse entry.1 = .error fault := by
  rw [Readable]
  cases Address.parse entry.1 with
  | ok a => simp
  | error fault => simp

/-- the logo that comes last for a token -/
def latestLogo? (logos : List (String × String)) (token : Address) : Option String :=
  (logos.reverse.find? fun entry => decide (Address.parse entry.1 = .ok token)).map Prod.snd

section

variable {logos : List (String × String)} {token : Address} {url : String}

theorem latestLogo?_cons (entry : String × String) (logos : List (String × String)) (token : Address) :
    latestLogo? (entry :: logos) token =
      (latestLogo? logos token).or (if Address.parse entry.1 = .ok token then some entry.2 else none) := by
  rw [latestLogo?, List.reverse_cons, List.find?_append, Option.map_or, latestLogo?]
  congr 1
  by_cases h : Address.parse entry.1 = .ok token
  · simp [h]
  · simp [h]

theorem latestLogo?_snoc (logos : List (String × String)) {entry : String × String}
    (h : Address.parse entry.1 = .ok token) : latestLogo? (logos ++ [entry]) token = some entry.2 := by
  rw [latestLogo?, List.reverse_append, List.reverse_singleton, List.singleton_append, List.find?_cons_of_pos]
  · rfl
  · exact decide_eq_true h

/-- the logo of a token stands under one of its names -/
theorem mem_of_latestLogo? (h : latestLogo? logos token = some url) :
    ∃ entry ∈ logos, Address.parse entry.1 = .ok token ∧ entry.2 = url := by
  obtain ⟨entry, hfind, hurl⟩ := Option.map_eq_some_iff.1 h
  have hmem := List.mem_of_find?_eq_some hfind
  have hnames := List.find?_some hfind
  exact ⟨entry, List.mem_reverse.1 hmem, of_decide_eq_true hnames, hurl⟩

theorem latestLogo?_eq_none_iff :
    latestLogo? logos token = none ↔ ∀ entry ∈ logos, Address.parse entry.1 ≠ .ok token := by
  rw [latestLogo?, Option.map_eq_none_iff, List.find?_eq_none]
  simp only [List.mem_reverse, decide_eq_true_eq, ne_eq]

/-- a table that reads has the logo that came last for a token, or the one that it had before -/
theorem lookup_resolveLogos {table full : List (Address × String)} (h : resolveLogos table logos = .ok full)
    (token : Address) : full.lookup token = (latestLogo? logos token).or (table.lookup token) := by
  induction logos generalizing table with
  | nil =>
    obtain rfl := Except.ok.inj h
    rfl
  | cons entry rest ih =>
    rw [resolveLogos] at h
    cases hparse : Address.parse entry.1 with
    | error fault =>
      simp only [hparse] at h
      cases h
    | ok a =>
      simp only [hparse] at h
      rw [ih h, Logos.lookup_enter, latestLogo?_cons, hparse, Option.or_assoc]
      congr 1
      by_cases ha : token = a
      · rw [if_pos ha, ha, if_pos rfl, Option.some_or]
      · rw [if_neg ha, if_neg fun hok => ha (Except.ok.inj hok).symm, Option.none_or]

/-- reading ends at the first key that is no address -/
theorem resolveLogos_stray {table : List (Address × String)} {before after : List (String × String)}
    {entry : String × String} {fault : AddressFault} (hbefore : ∀ e ∈ before, Readable e)
    (hstray : Address.parse entry.1 = .error fault) :
    resolveLogos table (before ++ entry :: after) = .error (.logoAddress entry.1 fault) := by
  induction before generalizing table with
  | nil => rw [List.nil_append, resolveLogos, hstray]
  | cons e rest ih =>
    obtain ⟨a, ha⟩ := hbefore e List.mem_cons_self
    rw [List.cons_append, resolveLogos, ha]
    exact ih fun e' he' => hbefore e' (List.mem_cons_of_mem e he')

end

/-! ## What an order comes to -/

/-- a table whose keys are all addresses reads -/
theorem resolve_readable {logos : List (String × String)} (fallback : String)
    (h : ∀ entry ∈ logos, Readable entry) :
    ∃ l, Tokens.resolve ⟨logos, fallback⟩ = .ok l ∧
      ∀ token, l.logoFor token = (latestLogo? logos token).getD fallback := by
  obtain ⟨full, hfull⟩ := (@resolveLogos_isOk_iff logos []).2 h
  refine ⟨⟨full, fallback⟩, ?_, ?_⟩
  · rw [Tokens.resolve, hfull]
    rfl
  · intro token
    rw [Logos.logoFor, lookup_resolveLogos hfull, List.lookup_nil, Option.or_none]

/-- a table with a key that is no address fails with the first one -/
theorem resolve_stray (fallback : String) {before : List (String × String)} (after : List (String × String))
    {entry : String × String} {fault : AddressFault} (hbefore : ∀ e ∈ before, Readable e)
    (hstray : Address.parse entry.1 = .error fault) :
    Tokens.resolve ⟨before ++ entry :: after, fallback⟩ = .error (.logoAddress entry.1 fault) := by
  rw [Tokens.resolve, resolveLogos_stray hbefore hstray]
  rfl

/-- what the entries of a table come to in the order in which they stand -/
inductive ComesTo (logos : List (String × String)) (fallback : String) : Except Fault Logos → Prop where
  | table {l : Logos} (hreadable : ∀ entry ∈ logos, Readable entry)
    (hlatest : ∀ token, l.logoFor token = (latestLogo? logos token).getD fallback) : ComesTo logos fallback (.ok l)
  | stray {before after : List (String × String)} {entry : String × String} {fault : AddressFault}
    (hsplit : logos = before ++ entry :: after) (hbefore : ∀ e ∈ before, Readable e)
    (hstray : Address.parse entry.1 = .error fault) : ComesTo logos fallback (.error (.logoAddress entry.1 fault))

theorem resolve_comes (logos : List (String × String)) (fallback : String) :
    ComesTo logos fallback (Tokens.resolve ⟨logos, fallback⟩) := by
  rcases Defi.first_failure (fun entry => Address.parse entry.1) logos with
    hall | ⟨before, entry, after, fault, rfl, hbefore, hstray⟩
  · obtain ⟨l, hl, hlatest⟩ := resolve_readable fallback hall
    rw [hl]
    exact .table hall hlatest
  · rw [resolve_stray fallback after hbefore hstray]
    exact .stray rfl hbefore hstray

/-! ## Orders -/

/-- outcomes that no one can tell apart: one fault, or one logo for each token -/
inductive Agree : Except Fault Logos → Except Fault Logos → Prop where
  | fault {f : Fault} : Agree (.error f) (.error f)
  | logos {l l' : Logos} (h : ∀ token, l.logoFor token = l'.logoFor token) : Agree (.ok l) (.ok l')

theorem Agree.fault_eq {f g : Fault} (h : Agree (.error f) (.error g)) : f = g := by
  cases h
  rfl

theorem Agree.map_logoFor {r r' : Except Fault Logos} (h : Agree r r') (token : Address) :
    r.map (fun l => l.logoFor token) = r'.map fun l => l.logoFor token := by
  cases h with
  | fault => rfl
  | logos h => simp only [Except.map, h token]

/-- tables in which the order of the entries does not matter -/
inductive Settled (logos : List (String × String)) : Prop where
  /-- all keys are addresses, and those of one token have one logo -/
  | tokens (hreadable : ∀ entry ∈ logos, Readable entry)
    (hone : ∀ e ∈ logos, ∀ e' ∈ logos, ∀ a, Address.parse e.1 = .ok a → Address.parse e'.1 = .ok a → e.2 = e'.2)
  /-- just one key is no address -/
  | stray {entry : String × String} (hmem : entry ∈ logos) (hstray : ¬Readable entry)
    (hothers : ∀ e ∈ logos, ¬Readable e → e = entry)

section

variable {logos p q : List (String × String)} {fallback : String}

/-- an entry may be the last one that is read -/
theorem moved_last {entry : String × String} (h : entry ∈ logos) : (logos.erase entry ++ [entry]).Perm logos :=
  (List.perm_append_singleton entry (logos.erase entry)).trans (List.perm_cons_erase h).symm

/-- where all keys are addresses and those of one token have one logo, only what the entries are counts -/
theorem latestLogo?_perm (hp : p.Perm logos) (hq : q.Perm logos)
    (hone : ∀ e ∈ logos, ∀ e' ∈ logos, ∀ a, Address.parse e.1 = .ok a → Address.parse e'.1 = .ok a → e.2 = e'.2)
    (token : Address) : latestLogo? p token = latestLogo? q token := by
  cases hfirst : latestLogo? p token with
  | none =>
    rw [latestLogo?_eq_none_iff] at hfirst
    symm
    rw [latestLogo?_eq_none_iff]
    intro entry hentry
    exact hfirst entry (hp.mem_iff.2 (hq.mem_iff.1 hentry))
  | some url =>
    obtain ⟨e, he, hnames, rfl⟩ := mem_of_latestLogo? hfirst
    cases hsecond : latestLogo? q token with
    | none =>
      rw [latestLogo?_eq_none_iff] at hsecond
      exact absurd hnames (hsecond e (hq.mem_iff.2 (hp.mem_iff.1 he)))
    | some url' =>
      obtain ⟨e', he', hnames', rfl⟩ := mem_of_latestLogo? hsecond
      rw [hone e (hp.mem_iff.1 he) e' (hq.mem_iff.1 he') token hnames hnames']

/-- the only key that is no address is what reading ends at, wherever it stands -/
theorem resolve_only_stray {entry : String × String} {fault : AddressFault} (hp : p.Perm logos) (hmem : entry ∈ logos)
    (hstray : Address.parse entry.1 = .error fault) (hothers : ∀ e ∈ logos, ¬Readable e → e = entry) :
    Tokens.resolve ⟨p, fallback⟩ = .error (.logoAddress entry.1 fault) := by
  have hcomes := resolve_comes p fallback
  generalize Tokens.resolve ⟨p, fallback⟩ = outcome at hcomes ⊢
  cases hcomes with
  | table hreadable _ => exact absurd (hreadable entry (hp.mem_iff.2 hmem)) (not_readable_iff.2 ⟨fault, hstray⟩)
  | @stray before after e found hsplit hbefore hfound =>
    have hin : e ∈ p := hsplit ▸ List.mem_append_right before List.mem_cons_self
    obtain rfl := hothers e (hp.mem_iff.1 hin) (not_readable_iff.2 ⟨found, hfound⟩)
    obtain rfl := Except.error.inj (hfound.symm.trans hstray)
    rfl

/-- an entry that is read last gives its token the logo -/
theorem resolve_last (fallback : String) {entry : String × String} {a : Address} (hreadable : ∀ e ∈ logos, Readable e)
    (hmem : entry ∈ logos) (hnames : Address.parse entry.1 = .ok a) :
    ∃ l, Tokens.resolve ⟨logos.erase entry ++ [entry], fallback⟩ = .ok l ∧ l.logoFor a = entry.2 := by
  obtain ⟨l, hl, hlatest⟩ := resolve_readable fallback fun e he => hreadable e ((moved_last hmem).mem_iff.1 he)
  refine ⟨l, hl, ?_⟩
  rw [hlatest, latestLogo?_snoc _ hnames]
  rfl

/-- an entry that is read first and is no address is what the table fails with -/
theorem resolve_first (fallback : String) (rest : List (String × String)) {entry : String × String}
    (h : ¬Readable entry) :
    ∃ fault, Tokens.resolve ⟨entry :: rest, fallback⟩ = .error (.logoAddress entry.1 fault) := by
  obtain ⟨fault, hfault⟩ := not_readable_iff.1 h
  exact ⟨fault, resolve_stray fallback rest (fun _ h => absurd h List.not_mem_nil) hfault⟩

/-- orders that agree leave nothing for the order to decide -/
theorem settled_of_agree (hdistinct : (logos.map Prod.fst).Nodup)
    (hagree : ∀ p q, p.Perm logos → q.Perm logos →
      Agree (Tokens.resolve ⟨p, fallback⟩) (Tokens.resolve ⟨q, fallback⟩)) : Settled logos := by
  by_cases hreadable : ∀ entry ∈ logos, Readable entry
  · refine .tokens hreadable ?_
    intro e he e' he' a hnames hnames'
    -- of two logos of one token each is the last one in some order
    obtain ⟨l, hl, hlogo⟩ := resolve_last fallback hreadable he hnames
    obtain ⟨l', hl', hlogo'⟩ := resolve_last fallback hreadable he' hnames'
    have hsame := (hagree _ _ (moved_last he) (moved_last he')).map_logoFor a
    rw [hl, hl'] at hsame
    rw [← hlogo, ← hlogo']
    exact Except.ok.inj hsame
  · push Not at hreadable
    obtain ⟨entry, hmem, hstray⟩ := hreadable
    refine .stray hmem hstray ?_
    intro e he hunreadable
    -- of two keys that are no addresses each is the first one in some order
    obtain ⟨fault, hfirst⟩ := resolve_first fallback (logos.erase entry) hstray
    obtain ⟨fault', hfirst'⟩ := resolve_first fallback (logos.erase e) hunreadable
    have hsame := hagree _ _ (List.perm_cons_erase he).symm (List.perm_cons_erase hmem).symm
    rw [hfirst, hfirst'] at hsame
    obtain ⟨hkeys, -⟩ := Fault.logoAddress.inj hsame.fault_eq
    exact List.inj_on_of_nodup_map hdistinct he hmem hkeys

/-- in a table in which the order does not matter all orders agree -/
theorem Settled.agree (h : Settled logos) (hp : p.Perm logos) (hq : q.Perm logos) :
    Agree (Tokens.resolve ⟨p, fallback⟩) (Tokens.resolve ⟨q, fallback⟩) := by
  cases h with
  | tokens hreadable hone =>
    obtain ⟨l, hl, hlatest⟩ := resolve_readable fallback
      fun entry hentry => hreadable entry (hp.mem_iff.1 hentry)
    obtain ⟨l', hl', hlatest'⟩ := resolve_readable fallback
      fun entry hentry => hreadable entry (hq.mem_iff.1 hentry)
    rw [hl, hl']
    refine .logos fun token => ?_
    rw [hlatest, hlatest', latestLogo?_perm hp hq hone]
  | stray hmem hstray hothers =>
    obtain ⟨fault, hfault⟩ := not_readable_iff.1 hstray
    rw [resolve_only_stray hp hmem hfault hothers, resolve_only_stray hq hmem hfault hothers]
    exact .fault

/-- **What the order of a table decides.** In whatever order the entries of a table of logos are read, each token has
the logo that comes last for it, or reading ends at the first key that is no address. All orders come to the same just
for the tables whose entries leave nothing to the order: those in which the keys of one token have one logo, and those
with one key that is no address. -/
theorem order_decides (logos : List (String × String)) (fallback : String) (hdistinct : (logos.map Prod.fst).Nodup) :
    (∀ p, p.Perm logos → ComesTo p fallback (Tokens.resolve ⟨p, fallback⟩)) ∧
      ((∀ p q, p.Perm logos → q.Perm logos →
        Agree (Tokens.resolve ⟨p, fallback⟩) (Tokens.resolve ⟨q, fallback⟩)) ↔ Settled logos) := by
  refine ⟨fun p _ => resolve_comes p fallback, settled_of_agree hdistinct, ?_⟩
  intro h p q hp hq
  exact h.agree hp hq

end

/-! ## Spellings of one token -/

/-- one token in small letters and in capitals, with these logos -/
def spellings (small capital : String) : List (String × String) :=
  [("0xabababababababababababababababababababab", small), ("0xABABABABABABABABABABABABABABABABABABABAB", capital)]

/-- two spellings of a token that have one logo read the same in both orders -/
theorem order_decides_one_logo :
    ((spellings "wrapped.svg" "wrapped.svg").map Prod.fst).Nodup ∧
      ∀ p q, p.Perm (spellings "wrapped.svg" "wrapped.svg") → q.Perm (spellings "wrapped.svg" "wrapped.svg") →
        Agree (Tokens.resolve ⟨p, "none.svg"⟩) (Tokens.resolve ⟨q, "none.svg"⟩) := by
  have hdistinct : ((spellings "wrapped.svg" "wrapped.svg").map Prod.fst).Nodup := by decide +kernel
  refine ⟨hdistinct, ?_⟩
  rw [(order_decides _ _ hdistinct).2]
  have hreadable : ∀ entry ∈ spellings "wrapped.svg" "wrapped.svg", Readable entry := by decide +kernel
  have hlogo : ∀ entry ∈ spellings "wrapped.svg" "wrapped.svg", entry.2 = "wrapped.svg" := by decide +kernel
  refine .tokens hreadable ?_
  intro e he e' he' _ _ _
  rw [hlogo e he, hlogo e' he']

/-- two spellings of a token that have a logo each: the one that is read last has it -/
theorem spellings_contend :
    ¬∀ (logos p q : List (String × String)) (fallback : String), (logos.map Prod.fst).Nodup →
      p.Perm logos → q.Perm logos → Agree (Tokens.resolve ⟨p, fallback⟩) (Tokens.resolve ⟨q, fallback⟩) := by
  intro h
  have hagree := h (spellings "a.svg" "b.svg") (spellings "a.svg" "b.svg") (spellings "a.svg" "b.svg").reverse
    "none.svg" (by decide +kernel) (.refl _) (List.reverse_perm _)
  have hlogos := hagree.map_logoFor ⟨List.replicate 20 0xAB, rfl⟩
  revert hlogos
  decide +kernel

end Config

end ChainBridge
