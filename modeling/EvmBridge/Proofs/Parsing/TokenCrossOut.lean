import EvmBridge.Proofs.Abi.Emission
import EvmBridge.Proofs.Parsing.Acceptance
import EvmBridge.Sample

/-! # Which logs bear out the cross-out of a token

The logs of a token cross-out are read in one pass that stops at the first log out of place and
notes on the way whether the transfer and the event were seen. What the pass finds can be said of
the logs as a set: all of them agree with the calldata, and two of them are there
(`Bridge.BearsOut`). So the logs may come in any order (`Bridge.tokenCrossOut_accepted_iff`).
-/

namespace EvmBridge.Bridge
set_option autoImplicit false
open EvmBridge.Action

variable {b : Bridge} {tx : Transaction} {args : Call.CrossOut} {log : Log} {logs : List Log}
  {seen found : CrossOutEvidence}

theorem bridgeContract_ne_zero (b : Bridge) : b.config.bridgeContract ≠ .zero := by
  intro h
  have husable := b.usable
  simp [Config.check, FixedBytes.isZero, h] at husable

/-! ## One log -/

/-- Whether a log is in place among those of a cross-out: it decodes, a transfer is one of the token
and the amount, burnt by the contract or sent to it, and the event repeats the calldata. -/
def Agrees (b : Bridge) (tx : Transaction) (args : Call.CrossOut) (log : Log) : Prop :=
  match b.event log with
  | .ok (.transfer _ sender recipient amount) =>
    log.address = args.token ∧ amount = args.amount ∧
      (sender = b.config.bridgeContract ∧ recipient = .zero ∨
        sender = tx.sender ∧ recipient = b.config.bridgeContract)
  | .ok (.crossOutFunds sender recipient amount token) =>
    sender = tx.sender ∧ recipient = args.recipient ∧ amount = args.amount ∧ token = args.token
  | .ok _ => True
  | .error _ => False

/-- Whether a log is the transfer of the asset to the contract. -/
def IsPayment (b : Bridge) (tx : Transaction) (args : Call.CrossOut) (log : Log) : Prop :=
  b.event log = .ok (.transfer args.token tx.sender b.config.bridgeContract args.amount)

/-- Whether a log is the event of the cross-out. -/
def IsNotice (b : Bridge) (tx : Transaction) (args : Call.CrossOut) (log : Log) : Prop :=
  b.event log = .ok (.crossOutFunds tx.sender args.recipient args.amount args.token)

/-- What is known after one more log. -/
def Notes (b : Bridge) (tx : Transaction) (args : Call.CrossOut) (log : Log)
    (seen seen' : CrossOutEvidence) : Prop :=
  (seen'.transferSeen = true ↔ seen.transferSeen = true ∨ b.IsPayment tx args log) ∧
    (seen'.eventSeen = true ↔ seen.eventSeen = true ∨ b.IsNotice tx args log)

theorem crossOutEvidence?_cons_of_agrees (h : b.Agrees tx args log) (seen : CrossOutEvidence)
    (logs : List Log) :
    ∃ seen', b.Notes tx args log seen seen' ∧
      b.crossOutEvidence? tx args seen (log :: logs) = b.crossOutEvidence? tx args seen' logs := by
  have hzero := b.bridgeContract_ne_zero
  rw [crossOutEvidence?]
  unfold Agrees at h
  cases hevent : b.event log with
  | error fault => simp [hevent] at h
  | ok event =>
    rw [hevent] at h
    cases event with
    | transfer contract sender recipient amount =>
      have hcontract := address_of_transfer hevent
      obtain ⟨hemitter, rfl, ⟨rfl, rfl⟩ | ⟨rfl, rfl⟩⟩ := h
      · refine ⟨seen, ?_, by simp [← hcontract, hemitter]⟩
        simp [Notes, IsPayment, IsNotice, hevent, Ne.symm hzero]
      · refine ⟨{ seen with transferSeen := true }, ?_, by simp [← hcontract, hemitter, hzero]⟩
        simp [Notes, IsPayment, IsNotice, hevent, ← hcontract, hemitter]
    | crossOutFunds sender recipient amount token =>
      obtain ⟨rfl, rfl, rfl, rfl⟩ := h
      refine ⟨{ seen with eventSeen := true }, ?_, by simp⟩
      simp [Notes, IsPayment, IsNotice, hevent]
    | depositFunds | transferFunds | completed | unrecognized =>
      refine ⟨seen, ?_, rfl⟩
      simp [Notes, IsPayment, IsNotice, hevent]

/-- A log out of place ends the search, whatever comes after it. -/
theorem crossOutEvidence?_cons_of_not_agrees (h : ¬ b.Agrees tx args log) :
    b.crossOutEvidence? tx args seen (log :: logs) = none := by
  rw [crossOutEvidence?]
  unfold Agrees at h
  cases hevent : b.event log with
  | error fault => rfl
  | ok event =>
    rw [hevent] at h
    cases event with
    | transfer contract sender recipient amount =>
      have hcontract := address_of_transfer hevent
      simp only [hcontract] at h
      simp only []
      split
      · rfl
      split
      · rw [if_neg]
        grind
      · rw [if_neg]
        grind
    | crossOutFunds sender recipient amount token => exact if_neg h
    | depositFunds | transferFunds | completed | unrecognized => exact absurd trivial h

/-! ## All logs -/

theorem crossOutEvidence?_eq_some_iff :
    b.crossOutEvidence? tx args seen logs = some found ↔
      (∀ log ∈ logs, b.Agrees tx args log) ∧
      (found.transferSeen = true ↔
        seen.transferSeen = true ∨ ∃ log ∈ logs, b.IsPayment tx args log) ∧
      (found.eventSeen = true ↔
        seen.eventSeen = true ∨ ∃ log ∈ logs, b.IsNotice tx args log) := by
  induction logs generalizing seen with
  | nil =>
    obtain ⟨transferSeen, eventSeen⟩ := seen
    obtain ⟨transferSeen', eventSeen'⟩ := found
    simp [crossOutEvidence?, eq_comm]
  | cons log logs ih =>
    by_cases hlog : b.Agrees tx args log
    · obtain ⟨seen', ⟨htransfer, hevent⟩, hrest⟩ :=
        crossOutEvidence?_cons_of_agrees hlog seen logs
      rw [hrest, ih, htransfer, hevent]
      simp [hlog, or_assoc]
    · rw [crossOutEvidence?_cons_of_not_agrees hlog]
      simp [hlog]

/-- What the logs have to be for a cross-out of a token to be accepted. -/
structure BearsOut (b : Bridge) (tx : Transaction) (args : Call.CrossOut) (logs : List Log) :
    Prop where
  agree : ∀ log ∈ logs, b.Agrees tx args log
  payment : ∃ log ∈ logs, b.IsPayment tx args log
  notice : ∃ log ∈ logs, b.IsNotice tx args log

theorem crossOutEvidence?_eq_iff_bearsOut :
    b.crossOutEvidence? tx args ⟨false, false⟩ logs = some ⟨true, true⟩ ↔
      b.BearsOut tx args logs := by
  rw [crossOutEvidence?_eq_some_iff]
  constructor
  · rintro ⟨hagree, hpayment, hnotice⟩
    exact ⟨hagree, (hpayment.1 rfl).resolve_left nofun, (hnotice.1 rfl).resolve_left nofun⟩
  · rintro ⟨hagree, hpayment, hnotice⟩
    exact ⟨hagree, iff_of_true rfl (.inr hpayment), iff_of_true rfl (.inr hnotice)⟩

theorem BearsOut.of_perm {logs' : List Log} (hlogs : b.BearsOut tx args logs)
    (h : logs.Perm logs') : b.BearsOut tx args logs' := by
  obtain ⟨hagree, hpayment, hnotice⟩ := hlogs
  simp only [h.mem_iff] at hagree hpayment hnotice
  exact ⟨hagree, hpayment, hnotice⟩

/-! ## The record -/

variable {receipt receipt' : Receipt} {r : Record}

theorem tokenCrossOut?_eq_some_iff : b.tokenCrossOut? tx args receipt = some r ↔
    ∃ info, b.tokens.lookup args.token = some info ∧ args.amount ≠ 0 ∧
      b.BearsOut tx args receipt.logs ∧
      r = { Record.ofTransaction .deposit tx (.ofToken info) with
        value := args.amount, counterpart := some args.recipient } := by
  unfold tokenCrossOut?
  cases b.tokens.lookup args.token with
  | none => simp
  | some info =>
    simp only [Option.some.injEq, exists_eq_left', Option.ite_none_right_eq_some,
      crossOutEvidence?_eq_iff_bearsOut]
    constructor
    · rintro ⟨⟨hlogs, hamount⟩, rfl⟩
      exact ⟨hamount, hlogs, rfl⟩
    · rintro ⟨hamount, hlogs, rfl⟩
      exact ⟨⟨hlogs, hamount⟩, rfl⟩

theorem crossOutRecord?_token (htoken : args.token ≠ .zero) (hstatus : receipt.status = true) :
    b.crossOutRecord? tx args receipt = b.tokenCrossOut? tx args receipt := by
  unfold crossOutRecord?
  by_cases hempty : receipt.logs = []
  · -- Without logs there is no transfer, so that nothing is lost by refusing at once.
    have hnone : b.tokenCrossOut? tx args receipt = none := by
      rw [Option.eq_none_iff_forall_ne_some]
      intro r hr
      obtain ⟨info, -, -, hlogs, -⟩ := tokenCrossOut?_eq_some_iff.1 hr
      obtain ⟨log, hmem, -⟩ := hlogs.payment
      rw [hempty] at hmem
      cases hmem
    simp [hempty, hnone]
  · simp [hempty, hstatus, htoken]

theorem tokenCrossOut?_congr (h : receipt'.logs.Perm receipt.logs) :
    b.tokenCrossOut? tx args receipt' = b.tokenCrossOut? tx args receipt := by
  have hlogs : b.BearsOut tx args receipt'.logs ↔ b.BearsOut tx args receipt.logs :=
    ⟨fun hb => hb.of_perm h, fun hb => hb.of_perm h.symm⟩
  apply Option.ext
  intro r
  rw [tokenCrossOut?_eq_some_iff, tokenCrossOut?_eq_some_iff, hlogs]

/-- A call of the contract for a cross-out of a token, late enough and carried out, is a deposit
exactly if the token is registered, the amount is not zero and the logs bear it out. The receipt may
come from anywhere, and in whatever order it has the logs, the same record is made. -/
theorem tokenCrossOut_accepted_iff {supplied : Option Receipt} (past : Exchanges)
    (hmethod : b.config.signatures.methodOf? tx.input = some .crossOut)
    (hargs : Call.crossOut tx.input = .ok args) (htoken : args.token ≠ .zero)
    (htargets : b.targets tx = true)
    (hheight : b.config.crossOutActivationHeight ≤ tx.blockHeight.getD 0)
    (hreceipt : b.HasReceipt tx past supplied receipt) (hstatus : receipt.status = true) :
    ∃ found, (b.parseDeposit tx supplied).outcome past = .ok found ∧
      (∀ r, found = some r ↔ ∃ info, b.tokens.lookup args.token = some info ∧ args.amount ≠ 0 ∧
        b.BearsOut tx args receipt.logs ∧
        r = { Record.ofTransaction .deposit tx (.ofToken info) with
          value := args.amount, counterpart := some args.recipient }) ∧
      ∀ receipt' supplied' past', receipt'.status = true → receipt'.logs.Perm receipt.logs →
        b.HasReceipt tx past' supplied' receipt' →
          (b.parseDeposit tx supplied').outcome past' = .ok found := by
  have hroute : b.depositRoute? tx = some (.crossOut args) := by
    have hrecipient := targets_iff.1 htargets
    simp [depositRoute?, crossOutArguments?, hrecipient, hmethod, htargets, hheight, hargs,
      Except.toOption]
  have hmade : ∀ receipt, receipt.status = true →
      b.depositRecord? tx (.crossOut args) receipt = b.tokenCrossOut? tx args receipt :=
    fun receipt hstatus => crossOutRecord?_token htoken hstatus
  refine ⟨b.tokenCrossOut? tx args receipt, ?_, fun r => tokenCrossOut?_eq_some_iff, ?_⟩
  · rw [outcome_parseDeposit_unchecked hroute rfl hreceipt, hmade receipt hstatus]
  · intro receipt' supplied' past' hstatus' hperm hreceipt'
    rw [outcome_parseDeposit_unchecked hroute rfl hreceipt', hmade receipt' hstatus',
      tokenCrossOut?_congr hperm]

/-- A token that burns what it got, with the event before both transfers and a log of something else
in between, and the same logs the other way round. -/
theorem tokenCrossOut_accepted_reversed :
    let info : TokenInfo := ⟨Sample.token, 7, 6, "token"⟩
    let b := { Sample.plainBridge Sample.emptyChain with tokens := TokenTable.empty.register info }
    let s := b.config.signatures
    let args : Call.CrossOut := ⟨"there", 5, Sample.token⟩
    let tx := Sample.transaction (.fill 1) Sample.user Sample.bridgeContract 0
      (Abi.encodeCall s.crossOut [.string args.recipient, .uint args.amount, .address args.token])
    let logs := [.ofCrossOut s Sample.bridgeContract Sample.user "there" 5 Sample.token,
      .ofTransfer s Sample.token Sample.user Sample.bridgeContract 5, ⟨Sample.user, [], []⟩,
      .ofTransfer s Sample.token Sample.bridgeContract .zero 5]
    let r := { Record.ofTransaction .deposit tx (.ofToken info) with
      value := 5, counterpart := some "there" }
    b.BearsOut tx args logs ∧
      (b.parseDeposit tx (some (Sample.receipt tx.hash logs))).outcome [] = .ok (some r) ∧
      (b.parseDeposit tx (some (Sample.receipt tx.hash logs.reverse))).outcome [] = .ok (some r) := by
  intro info b s args tx logs r
  have hargs : Call.crossOut tx.input = .ok args := ok_of_toOption (by decide +kernel)
  have hmethod : b.config.signatures.methodOf? tx.input = some .crossOut := by decide +kernel
  have hparse : (b.parseDeposit tx (some (Sample.receipt tx.hash logs))).outcome []
      = .ok (some r) := ok_of_toOption (by decide +kernel)
  obtain ⟨found, houtcome, haccepted, horder⟩ := tokenCrossOut_accepted_iff [] hmethod
    hargs (by decide) (by decide) (by decide) (.supplied (Sample.receipt tx.hash logs)) rfl
  rw [hparse] at houtcome
  cases houtcome
  obtain ⟨-, -, -, hlogs, -⟩ := (haccepted r).1 rfl
  exact ⟨hlogs, hparse, horder _ _ [] rfl logs.reverse_perm (.supplied _)⟩

end EvmBridge.Bridge
