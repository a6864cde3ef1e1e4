import EvmBridge.Proofs.Parsing.DecidingLog
import EvmBridge.Proofs.Parsing.TokenCrossOut

/-! # What an accepted cross-out proves

A cross-out is written down three times: in the calldata, in an event of the contract and in the
record. Record and event always agree, also on the token that the calldata names. The rest of the
calldata of a native cross-out is not compared with either, so that all three agree exactly if it
names the value that was sent and the recipient of the event: `Bridge.crossOut_agrees_iff`.
-/

namespace EvmBridge.Bridge
set_option autoImplicit false
open EvmBridge.Action

variable {b : Bridge} {tx : Transaction} {receipt : Receipt} {r : Record} {args : Call.CrossOut}

/-- Whether a receipt holds the event of a cross-out by the transaction's sender. -/
def HasCrossOut (b : Bridge) (tx : Transaction) (receipt : Receipt) (args : Call.CrossOut) : Prop :=
  ∃ log ∈ receipt.logs,
    b.event log = .ok (.crossOutFunds tx.sender args.recipient args.amount args.token)

/-- Whether calldata, event and record of a cross-out agree. -/
structure CrossOutAgrees (b : Bridge) (tx : Transaction) (receipt : Receipt) (args : Call.CrossOut)
    (r : Record) : Prop where
  value : r.value = args.amount
  counterpart : r.counterpart = some args.recipient
  event : b.HasCrossOut tx receipt args

/-! ## Native and token cross-outs -/

theorem agrees_of_tokenCrossOut (h : b.tokenCrossOut? tx args receipt = some r) :
    b.CrossOutAgrees tx receipt args r := by
  obtain ⟨info, -, -, hlogs, rfl⟩ := tokenCrossOut?_eq_some_iff.1 h
  exact ⟨rfl, rfl, hlogs.notice⟩

theorem of_nativeCrossOut (h : b.nativeCrossOut? tx receipt = some r) :
    ∃ recipient, r.value = tx.value ∧ r.counterpart = some recipient ∧
      b.HasCrossOut tx receipt ⟨recipient, tx.value, .zero⟩ := by
  obtain ⟨-, recipient, hfirst, rfl⟩ := nativeCrossOut?_eq_some_iff.1 h
  obtain ⟨log, hmem, -, hevent⟩ := hfirst.exists_mem
  exact ⟨recipient, rfl, rfl, log, hmem, hevent⟩

/-! ## All cross-outs -/

/-- The record of a cross-out always agrees with an event. With a token, both agree with the
calldata. -/
theorem of_crossOutRecord (h : b.crossOutRecord? tx args receipt = some r) :
    (∃ recipient, r.counterpart = some recipient ∧
        b.HasCrossOut tx receipt ⟨recipient, r.value, args.token⟩) ∧
      (args.token = .zero → r.value = tx.value) ∧
      (args.token ≠ .zero → b.CrossOutAgrees tx receipt args r) := by
  unfold crossOutRecord? at h
  split at h
  · split at h
    next hzero =>
      obtain ⟨recipient, hvalue, hcounterpart, hevent⟩ := of_nativeCrossOut h
      rw [hvalue, hzero]
      exact ⟨⟨recipient, hcounterpart, hevent⟩, fun _ => rfl, fun hne => absurd rfl hne⟩
    next hne =>
      have hagrees := agrees_of_tokenCrossOut h
      refine ⟨⟨args.recipient, hagrees.counterpart, ?_⟩, fun hzero => absurd hzero hne, fun _ => hagrees⟩
      rw [hagrees.value]
      exact hagrees.event
  · cases h

/-- An accepted cross-out agrees with an event of the receipt at hand. All of it agrees with the
calldata exactly if that names, for the native coin, the value that was sent and the recipient that
the event names. -/
theorem crossOut_agrees_iff {supplied : Option Receipt} {past : Exchanges}
    (hmethod : b.config.signatures.methodOf? tx.input = some .crossOut)
    (h : (b.parseDeposit tx supplied).outcome past = .ok (some r)) :
    ∃ args receipt, Call.crossOut tx.input = .ok args ∧ b.HasReceipt tx past supplied receipt ∧
      (∃ recipient, r.counterpart = some recipient ∧
        b.HasCrossOut tx receipt ⟨recipient, r.value, args.token⟩) ∧
      (b.CrossOutAgrees tx receipt args r ↔
        (args.token = .zero → args.amount = tx.value ∧ r.counterpart = some args.recipient)) := by
  obtain ⟨route, receipt, hroute, hreceipt, hmade⟩ := ends_parseDeposit.of_outcome h r rfl
  cases hroute with
  | native hother => exact absurd hmethod hother
  | token hother => exact absurd hmethod hother
  | @crossOut args _ _ _ hargs =>
    obtain ⟨⟨recipient, hcounterpart, hevent⟩, hnative, htoken⟩ := of_crossOutRecord hmade
    refine ⟨args, receipt, hargs, hreceipt, ⟨recipient, hcounterpart, hevent⟩, ?_, ?_⟩
    · intro hagrees hzero
      exact ⟨hagrees.value.symm.trans (hnative hzero), hagrees.counterpart⟩
    · intro hcalldata
      by_cases hzero : args.token = .zero
      · obtain ⟨hamount, hsame⟩ := hcalldata hzero
        have hvalue : r.value = args.amount := (hnative hzero).trans hamount.symm
        have hrecipient : recipient = args.recipient :=
          Option.some.inj (hcounterpart.symm.trans hsame)
        subst hrecipient
        rw [hvalue] at hevent
        exact ⟨hvalue, hsame, hevent⟩
      · exact htoken hzero

/-- A native cross-out of 5 to one recipient whose calldata names another one and an amount of
1000. -/
theorem accepted_crossOut_disagrees :
    let b := Sample.plainBridge Sample.emptyChain
    let args : Call.CrossOut := ⟨"first", 1000, .zero⟩
    let tx := Sample.transaction (.fill 1) Sample.user Sample.bridgeContract 5
      (Abi.encodeCall b.config.signatures.crossOut
        [.string args.recipient, .uint args.amount, .address args.token])
    let receipt := Sample.receipt tx.hash
      [.ofCrossOut b.config.signatures Sample.bridgeContract Sample.user "second" 5 .zero]
    let r := { Record.ofTransaction .deposit tx b.nativeAsset with counterpart := some "second" }
    Call.crossOut tx.input = .ok args ∧
      (b.parseDeposit tx (some receipt)).outcome [] = .ok (some r) ∧
      ¬ b.CrossOutAgrees tx receipt args r := by
  intro b args tx receipt r
  have hargs : Call.crossOut tx.input = .ok args := ok_of_toOption (by decide +kernel)
  have hmethod : b.config.signatures.methodOf? tx.input = some .crossOut := by decide +kernel
  have hparse : (b.parseDeposit tx (some receipt)).outcome [] = .ok (some r) :=
    ok_of_toOption (by decide +kernel)
  obtain ⟨args', receipt', hargs', hreceipt, -, hiff⟩ := crossOut_agrees_iff hmethod hparse
  cases hreceipt
  rw [hargs] at hargs'
  cases hargs'
  refine ⟨hargs, hparse, fun hagrees => ?_⟩
  have hamount := (hiff.1 hagrees rfl).1
  revert hamount
  decide

end EvmBridge.Bridge
