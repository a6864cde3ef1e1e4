import EvmBridge.Proofs.Outcome
import EvmBridge.Proofs.Parsing.Stages
import EvmBridge.Sample

/-! # Where the receipt comes from

A receipt may be supplied, asked for, or asked for after the transaction itself. On a node that does
not fail this changes neither the record nor what is asked afterwards:
`Bridge.receipt_source_irrelevant`.
-/

namespace EvmBridge
set_option autoImplicit false
open EvmBridge.Action

/-- The node always gives these answers. -/
def Node.Gives (n : Node) (answers : (c : NodeCall) → c.Answer) : Prop :=
  ∀ past c limit, n.respond past c limit = .answer (answers c)

/-! ## Actions with one outcome -/

/-- After whatever calls, an action has this outcome and makes these calls, the last one first. -/
def Action.Does {α : Type} (act : Action Exchanges α) (result : Except BridgeError α)
    (made : Exchanges) : Prop :=
  ∀ past, act.outcome past = result ∧ act.final past = made ++ past

namespace Action
variable {α β : Type} {made made' : Exchanges}

theorem does_pure (a : α) : Does (pure a) (.ok a) [] := fun _ => ⟨rfl, rfl⟩

theorem does_ofExcept (r : Except BridgeError α) : Does (ofExcept r) r [] := by
  intro past
  cases r <;> exact ⟨rfl, rfl⟩

theorem does_ask {n : Node} {answers : (c : NodeCall) → c.Answer} (h : n.Gives answers)
    (limit : UInt64) (c : NodeCall) : Does (n.ask limit c) (.ok (answers c)) [⟨c, true⟩] := by
  intro past
  simp only [outcome, final, EStateM.run, Node.ask, h past c limit, List.singleton_append, and_self]

theorem Does.bind {x : Action Exchanges β} {f : β → Action Exchanges α} {b : β}
    {result : Except BridgeError α} (hx : Does x (.ok b) made) (hf : Does (f b) result made') :
    Does (x >>= f) result (made' ++ made) := by
  intro past
  obtain ⟨hresult, hmade⟩ := hx past
  rw [outcome_bind, final_bind, hresult, hmade, List.append_assoc]
  exact hf (made ++ past)

theorem Does.bind_pure {x : Action Exchanges β} {b : β} (hx : Does x (.ok b) made) (f : β → α) :
    Does (x >>= fun b => pure (f b)) (.ok (f b)) made :=
  (hx.bind (f := fun b => pure (f b)) (does_pure (f b)) :)

theorem Does.bind_error {x : Action Exchanges β} {f : β → Action Exchanges α} {e : BridgeError}
    (hx : Does x (.error e) made) : Does (x >>= f) (.error e) made := by
  intro past
  obtain ⟨hresult, hmade⟩ := hx past
  rw [outcome_bind, final_bind, hresult, hmade]
  exact ⟨rfl, rfl⟩

end Action

namespace Bridge
variable {b : Bridge} {tx : Transaction} {kind : TxKind} {answers : (c : NodeCall) → c.Answer}

/-- The calls for a receipt that is not supplied. -/
def receiptCalls (b : Bridge) (tx : Transaction) (kind : TxKind) : Exchanges :=
  if b.needsReceipt tx kind then [⟨.receipt tx.hash, true⟩] else []

/-! ## Three sources -/

section
variable (hnode : b.node.Gives answers)
include hnode

theorem Concludes.exists_does {act : Action Exchanges (Option Record)} (h : b.Concludes act) :
    ∃ result made, act.Does result made := by
  cases h with
  | answer found => exact ⟨_, _, does_pure found⟩
  | minter token found =>
    have hminter : ∃ registered made, (b.isMinter token false).Does registered made :=
      ⟨_, _, (does_ask hnode _ _).bind (does_ofExcept _)⟩
    obtain ⟨registered, made, hminter⟩ := hminter
    cases registered with
    | error e => exact ⟨_, _, hminter.bind_error⟩
    | ok value => exact ⟨_, _, hminter.bind_pure found⟩

theorem does_parse {receipt : Receipt} (hreceipt : answers (.receipt tx.hash) = some receipt)
    (kind : TxKind) :
    ∃ result made,
      (b.parse kind tx (some receipt)).Does result made ∧
      (b.parse kind tx none).Does result (made ++ b.receiptCalls tx kind) ∧
      (b.needsReceipt tx kind = false → result = .ok none ∧ made = []) := by
  unfold receiptCalls
  have hstaged := b.staged_parse tx kind
  generalize b.needsReceipt tx kind = needs at hstaged ⊢
  cases hstaged with
  | done hop =>
    refine ⟨.ok none, [], ?_, ?_, fun _ => ⟨rfl, rfl⟩⟩
    · rw [hop]
      exact does_pure none
    · rw [hop]
      exact does_pure none
  | asks rest hop hrest =>
    obtain ⟨result, made, h⟩ := (hrest (some receipt)).exists_does hnode
    refine ⟨result, made, ?_, ?_, nofun⟩
    · rw [hop]
      exact h
    · rw [hop]
      refine (does_ask hnode _ _).bind ?_
      rw [hreceipt]
      exact h

theorem does_parseByHash {hash : Hash} (hserved : answers (.transaction hash) = some tx)
    {result : Except BridgeError (Option Record)} {made : Exchanges}
    (h : (b.parse kind tx none).Does result made) :
    (b.parseByHash kind hash).Does result (made ++ [⟨.transaction hash, true⟩]) := by
  have htransaction : (b.transaction hash).Does (.ok ((some tx).filter (·.recipient.isSome)))
      [⟨.transaction hash, true⟩] := by
    rw [← hserved]
    exact (does_ask hnode _ _).bind_pure _
  refine htransaction.bind ?_
  cases hrecipient : tx.recipient with
  | none =>
    rw [parse_of_needless (needsReceipt_of_creation hrecipient)] at h
    rw [Option.filter_some, hrecipient]
    exact h
  | some _ =>
    rw [Option.filter_some, hrecipient]
    exact h

/-- On a node that does not fail and knows the receipt of a transaction, each operation ends alike with
the receipt supplied, without it, and by a hash that the transaction is served for. It makes the same
calls; before them comes the one for the receipt, only where that is needed, and before it the one for
the transaction. -/
theorem receipt_source_irrelevant {receipt : Receipt}
    (hreceipt : answers (.receipt tx.hash) = some receipt) (kind : TxKind) :
    ∃ result made,
      (b.parse kind tx (some receipt)).Does result made ∧
      (b.parse kind tx none).Does result (made ++ b.receiptCalls tx kind) ∧
      (b.needsReceipt tx kind = false → result = .ok none ∧ made = []) ∧
      ∀ hash, answers (.transaction hash) = some tx →
        (b.parseByHash kind hash).Does result
          (made ++ b.receiptCalls tx kind ++ [⟨.transaction hash, true⟩]) ∧
        (tx.recipient = none → result = .ok none ∧ made ++ b.receiptCalls tx kind = []) := by
  obtain ⟨result, made, hsupplied, hasked, hneedless⟩ := does_parse hnode hreceipt kind
  refine ⟨result, made, hsupplied, hasked, hneedless, fun hash hserved =>
    ⟨does_parseByHash hnode hserved hasked, fun hcreates => ?_⟩⟩
  have hneeds : b.needsReceipt tx kind = false := needsReceipt_of_creation hcreates
  obtain ⟨hnone, hmade⟩ := hneedless hneeds
  refine ⟨hnone, ?_⟩
  rw [receiptCalls, hneeds, hmade]
  rfl

end

/-- The deposit of a bound token, whose minter is asked for last. -/
theorem receipt_source_irrelevant_bound_token :
    let info : TokenInfo := ⟨Sample.token, 7, 6, "token"⟩
    let tx := Sample.transaction (.fill 1) Sample.user Sample.token 0 []
    let receipt := Sample.receipt tx.hash
      [.ofTransfer Sample.plainSignatures Sample.token Sample.user Sample.bridgeContract 5]
    let chain := { Sample.emptyChain.addTransaction tx receipt with
      viewOverride := some (Abi.encode [.bool true]) }
    let b := { Sample.plainBridge chain with tokens := (TokenTable.empty.register info).bindAsset 7 }
    let r := { Record.ofTransaction .deposit tx (.ofToken info) with
      recipient := Sample.bridgeContract, value := 5 }
    let minter := NodeCall.view Sample.bridgeContract
      (Abi.encodeCall Sample.plainSignatures.isMinter [.address Sample.token]) false
    b.node.Gives chain.answer ∧ chain.answer (.receipt tx.hash) = some receipt ∧
      (b.parse .deposit tx (some receipt)).Does (.ok (some r)) [⟨minter, true⟩] ∧
      (b.parse .deposit tx none).Does (.ok (some r)) [⟨minter, true⟩, ⟨.receipt tx.hash, true⟩] ∧
      (b.parseByHash .deposit tx.hash).Does (.ok (some r))
        [⟨minter, true⟩, ⟨.receipt tx.hash, true⟩, ⟨.transaction tx.hash, true⟩] := by
  intro info tx receipt chain b r minter
  have hnode : b.node.Gives chain.answer := fun _ _ _ => rfl
  have hreceipt : chain.answer (.receipt tx.hash) = some receipt := by rfl
  obtain ⟨result, made, hsupplied, hasked, -, hbyHash⟩ :=
    receipt_source_irrelevant hnode hreceipt .deposit
  have hresult : (b.parse .deposit tx (some receipt)).outcome [] = .ok (some r) :=
    ok_of_toOption (by decide +kernel)
  have hmade : (b.parse .deposit tx (some receipt)).final [] = [⟨minter, true⟩] := by
    decide +kernel
  have hcalls : b.receiptCalls tx .deposit = [⟨.receipt tx.hash, true⟩] := by decide +kernel
  obtain rfl : result = .ok (some r) := (hsupplied []).1.symm.trans hresult
  obtain rfl : made = [⟨minter, true⟩] := by
    have h := (hsupplied []).2.symm.trans hmade
    rwa [List.append_nil] at h
  rw [hcalls] at hasked hbyHash
  exact ⟨hnode, hreceipt, hsupplied, hasked, (hbyHash tx.hash rfl).1⟩

end Bridge
end EvmBridge
