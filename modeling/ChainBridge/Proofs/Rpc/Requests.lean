/-
A request tells which query it is.

Every part of a request can be read back from its text: byte strings are written two digits to the byte, addresses and
the words of call data have one length each, and no two of the calls share a selector. So call data determine the call
with its arguments (`Call.encode_injective`, `Call.data_injective`), and two queries about the same block with the same
request are the same query (`Query.eq_of_request`).
-/
import Mathlib
import ChainBridge.Proofs.Address.Texts
import ChainBridge.Rpc.Query

namespace ChainBridge

namespace Address

theorem toWord_injective : Function.Injective toWord :=
  fun _ _ h => eq_of_bytes (List.append_cancel_left h)

/-- words that follow one another can be told apart, since all have one length -/
theorem words_injective : Function.Injective fun l : List Address => l.flatMap toWord := by
  intro l l' h
  induction l generalizing l' with
  | nil =>
    cases l' with
    | nil => rfl
    | cons b l' =>
      have hlength := congrArg List.length h
      simp only [List.flatMap_nil, List.flatMap_cons, List.length_append, List.length_nil, length_toWord] at hlength
      omega
  | cons a l ih =>
    cases l' with
    | nil =>
      have hlength := congrArg List.length h
      simp only [List.flatMap_nil, List.flatMap_cons, List.length_append, List.length_nil, length_toWord] at hlength
      omega
    | cons b l' =>
      simp only [List.flatMap_cons] at h
      obtain ⟨hword, hrest⟩ := List.append_inj h (by rw [length_toWord, length_toWord])
      rw [toWord_injective hword, ih hrest]

end Address

/-! ## Calls -/

namespace Call

/-- the signatures of all calls -/
def signatures : List String :=
  ["totalSupply()", "balanceOf(address)", "allowance(address,address)", "getFMintFee4dec()",
    "getCollateralLowestDebtRatio4dec()", "getRewardEligibilityRatio4dec()", "fMintFeeDigitsCorrection()"]

theorem signature_mem (c : Call) : c.signature ∈ signatures := by cases c <;> simp [signature, signatures]

/-- the first four bytes of the hash of each signature -/
theorem selectors_eq : signatures.map selector =
    [[0x18, 0x16, 0x0D, 0xDD], [0x70, 0xA0, 0x82, 0x31], [0xDD, 0x62, 0xED, 0x3E], [0x7C, 0x4B, 0x7A, 0x86],
      [0xD6, 0x5C, 0xB5, 0xAA], [0x59, 0xEB, 0x35, 0x70], [0xCB, 0xF0, 0x2F, 0xD5]] := by
  decide +kernel

/-- no two calls have one selector -/
theorem signature_of_selector {c c' : Call} (h : selector c.signature = selector c'.signature) :
    c.signature = c'.signature := by
  have hdistinct : (signatures.map selector).Nodup := by
    rw [selectors_eq]
    decide
  exact List.inj_on_of_nodup_map hdistinct c.signature_mem c'.signature_mem h

theorem length_selector (c : Call) : (selector c.signature).length = 4 := by
  have hmem : selector c.signature ∈ signatures.map selector := List.mem_map_of_mem c.signature_mem
  rw [selectors_eq] at hmem
  generalize selector c.signature = s at hmem
  simp only [List.mem_cons, List.not_mem_nil, or_false] at hmem
  rcases hmem with rfl | rfl | rfl | rfl | rfl | rfl | rfl <;> rfl

/-- a call is its signature and its arguments -/
theorem eq_of_parts {c c' : Call} (hs : c.signature = c'.signature) (ha : c.arguments = c'.arguments) : c = c' := by
  cases c <;> cases c' <;> simp_all [signature, arguments]

/-- call data determine the call with its arguments -/
theorem encode_injective : Function.Injective encode := by
  intro c c' h
  obtain ⟨hselector, hwords⟩ := List.append_inj h (by rw [length_selector, length_selector])
  exact eq_of_parts (signature_of_selector hselector) (Address.words_injective hwords)

theorem data_injective : Function.Injective data := by
  intro c c' h
  have hdigits := (List.cons.inj (List.cons.inj (String.ofList_injective h)).2).2
  exact encode_injective (Text.Hex.encode_injective hdigits)

end Call

/-! ## Queries -/

namespace Rpc.Query

/-- the block that a query is about -/
def block : Query → BlockTag
  | .balance _ b | .transactionCount _ b | .call _ _ b => b

theorem name_of_method {ns : String} {q q' : Query} (h : q.method ns = q'.method ns) : q.name = q'.name :=
  (String.append_right_inj _).1 h

/-- at one block, different queries make different requests -/
theorem eq_of_request {ns : String} {q q' : Query} (hblock : q.block = q'.block) (h : q.request ns = q'.request ns) :
    q = q' := by
  obtain ⟨hmethod, hparams⟩ := Request.mk.inj h
  have hname := name_of_method hmethod
  cases q with
  | balance account b =>
    cases q' with
    | balance account' b' =>
      simp only [params, Json.list.injEq, List.cons.injEq, Json.text.injEq] at hparams
      rw [Address.display_injective hparams.1, show b = b' from hblock]
    | transactionCount account' b' => simp [name] at hname
    | call contract' c' b' => simp [name] at hname
  | transactionCount account b =>
    cases q' with
    | balance account' b' => simp [name] at hname
    | transactionCount account' b' =>
      simp only [params, Json.list.injEq, List.cons.injEq, Json.text.injEq] at hparams
      rw [Address.display_injective hparams.1, show b = b' from hblock]
    | call contract' c' b' => simp [name] at hname
  | call contract c b =>
    cases q' with
    | balance account' b' => simp [name] at hname
    | transactionCount account' b' => simp [name] at hname
    | call contract' c' b' =>
      simp only [params, Json.list.injEq, List.cons.injEq, Json.object.injEq, Prod.mk.injEq, Json.text.injEq,
        true_and] at hparams
      obtain ⟨⟨hdata, hto, -⟩, -⟩ := hparams
      rw [Call.data_injective hdata, Address.display_injective hto, show b = b' from hblock]

end Rpc.Query

end ChainBridge
