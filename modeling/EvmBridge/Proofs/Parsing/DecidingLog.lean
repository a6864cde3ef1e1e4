import EvmBridge.Proofs.Abi.Emission
import EvmBridge.Proofs.Parsing.Acceptance
import EvmBridge.Sample

/-! # The log that decides

Withdrawals, plain deposits and native cross-outs are decided by one log of the receipt: the first of
its kind, with nothing before it that would have ended the search (`Log.First`). What ends a search
differs. A withdrawal is refused at any log that does not decode, a native cross-out only at one with
the topic of its event. The logs behind the deciding one count for nothing but the completion of a
withdrawal.
-/

namespace EvmBridge
set_option autoImplicit false
open EvmBridge.Action

/-! ## The first log of a kind -/

/-- Some log decides, and every log before it is passed over. -/
def Log.First (passes decides : Log → Prop) (logs : List Log) : Prop :=
  ∃ before log after, logs = before ++ log :: after ∧ (∀ l ∈ before, passes l) ∧ decides log

namespace Log
variable {passes decides : Log → Prop} {log : Log} {logs : List Log}

theorem not_first_nil : ¬ First passes decides [] := by
  rintro ⟨before, log, after, hsplit, -⟩
  simp at hsplit

theorem first_cons :
    First passes decides (log :: logs) ↔ decides log ∨ passes log ∧ First passes decides logs := by
  constructor
  · rintro ⟨before, log', after, hsplit, hbefore, hlog⟩
    cases before with
    | nil =>
      obtain ⟨rfl, -⟩ := List.cons.inj hsplit
      exact .inl hlog
    | cons first before =>
      obtain ⟨rfl, rfl⟩ := List.cons.inj hsplit
      have hpasses : ∀ l ∈ before, passes l := fun l hl => hbefore l (by simp [hl])
      exact .inr ⟨hbefore log (by simp), before, log', after, rfl, hpasses, hlog⟩
  · rintro (hlog | ⟨hpass, before, log', after, rfl, hbefore, hlog⟩)
    · exact ⟨[], log, logs, rfl, by simp, hlog⟩
    · refine ⟨log :: before, log', after, rfl, ?_, hlog⟩
      simpa [hpass] using hbefore

theorem First.exists_mem (h : First passes decides logs) : ∃ log ∈ logs, decides log := by
  obtain ⟨before, log, after, rfl, -, hlog⟩ := h
  exact ⟨log, by simp, hlog⟩

/-- Behind a log that is not passed over, all logs are the same. -/
theorem first_append_cons (h : ¬ passes log) (before after after' : List Log) :
    First passes decides (before ++ log :: after)
      ↔ First passes decides (before ++ log :: after') := by
  induction before with
  | nil => simp [first_cons, h]
  | cons first before ih => rw [List.cons_append, first_cons, ih, List.cons_append, first_cons]

end Log

/-- A record without what its completion says. -/
def Record.uncompleted (r : Record) : Record := { r with platformTxHash := none, signers := [] }

/-- Whether an event pays out of the contract. -/
def Event.isPayout : Event → Bool
  | .transfer .. | .transferFunds .. => true
  | _ => false

namespace Bridge
variable {b : Bridge} {tx : Transaction} {log : Log} {logs : List Log} {receipt receipt' : Receipt}
  {r : Record} {supplied : Option Receipt} {past : Exchanges}

/-! ## Withdrawals -/

/-- Whether a log decodes and is no payout. -/
def NoPayout (b : Bridge) (log : Log) : Prop := ∃ e, b.event log = .ok e ∧ e.isPayout = false

/-- What a log pays out: a registered token that it transfers, or the native coin. -/
inductive Pays (b : Bridge) (log : Log) : Payout → Prop where
  | token {sender recipient : Address} {amount : U256} {info : TokenInfo}
      (hevent : b.event log = .ok (.transfer log.address sender recipient amount))
      (hinfo : b.tokens.lookup log.address = some info) (hamount : amount ≠ 0) :
      Pays b log ⟨recipient, amount, .token info.contract info.assetId info.decimals⟩
  | native {recipient : Address} {amount : U256}
      (hevent : b.event log = .ok (.transferFunds recipient amount)) (hamount : amount ≠ 0) :
      Pays b log ⟨recipient, amount, .native b.config.nativeAssetId b.config.nativeDecimals⟩

theorem nonZeroPayout_eq_some_iff {recipient : Address} {amount : U256} {asset : Asset}
    {p : Payout} : nonZeroPayout recipient amount asset = some p ↔
      amount ≠ 0 ∧ p = ⟨recipient, amount, asset⟩ := by
  unfold nonZeroPayout
  by_cases hamount : amount = 0
  · simp [hamount]
  · simp only [hamount, if_false, ne_eq, not_false_eq_true, true_and, Option.some.injEq]
    exact eq_comm

section Pays
variable {p : Payout}

theorem Pays.exists_payout (h : b.Pays log p) : ∃ e, b.event log = .ok e ∧ e.isPayout = true := by
  cases h with
  | token hevent => exact ⟨_, hevent, rfl⟩
  | native hevent => exact ⟨_, hevent, rfl⟩

theorem not_pays_of_error {fault : EventFault} (hevent : b.event log = .error fault) :
    ¬ b.Pays log p := by
  intro hpays
  obtain ⟨e, he, -⟩ := hpays.exists_payout
  rw [hevent] at he
  cases he

theorem not_pays_of_noPayout (h : b.NoPayout log) : ¬ b.Pays log p := by
  intro hpays
  obtain ⟨e, he, hpayout⟩ := hpays.exists_payout
  obtain ⟨e', he', hno⟩ := h
  rw [he] at he'
  cases he'
  rw [hpayout] at hno
  cases hno

theorem pays_transfer_iff {sender recipient : Address} {amount : U256}
    (hevent : b.event log = .ok (.transfer log.address sender recipient amount)) :
    b.Pays log p ↔ ∃ info, b.tokens.lookup log.address = some info ∧
      nonZeroPayout recipient amount (.ofToken info) = some p := by
  constructor
  · intro hpays
    cases hpays with
    | token hevent' hinfo hamount =>
      rw [hevent] at hevent'
      cases hevent'
      exact ⟨_, hinfo, nonZeroPayout_eq_some_iff.2 ⟨hamount, rfl⟩⟩
    | native hevent' =>
      rw [hevent] at hevent'
      cases hevent'
  · rintro ⟨info, hinfo, h⟩
    obtain ⟨hamount, rfl⟩ := nonZeroPayout_eq_some_iff.1 h
    exact .token hevent hinfo hamount

theorem pays_transferFunds_iff {recipient : Address} {amount : U256}
    (hevent : b.event log = .ok (.transferFunds recipient amount)) :
    b.Pays log p ↔ nonZeroPayout recipient amount b.nativeAsset = some p := by
  constructor
  · intro hpays
    cases hpays with
    | token hevent' =>
      rw [hevent] at hevent'
      cases hevent'
    | native hevent' hamount =>
      rw [hevent] at hevent'
      cases hevent'
      exact nonZeroPayout_eq_some_iff.2 ⟨hamount, rfl⟩
  · intro h
    obtain ⟨hamount, rfl⟩ := nonZeroPayout_eq_some_iff.1 h
    exact .native hevent hamount

theorem payout?_cons_eq_some_iff : b.payout? (log :: logs) = some p ↔
    b.Pays log p ∨ b.NoPayout log ∧ b.payout? logs = some p := by
  rw [payout?]
  cases hevent : b.event log with
  | error fault => simp [not_pays_of_error hevent, NoPayout, hevent]
  | ok e =>
    have hno : b.NoPayout log ↔ e.isPayout = false := by simp [NoPayout, hevent]
    cases e with
    | transfer contract sender recipient amount =>
      obtain rfl := address_of_transfer hevent
      rw [pays_transfer_iff hevent, hno]
      dsimp only
      cases b.tokens.lookup log.address <;> simp [Event.isPayout]
    | transferFunds recipient amount =>
      rw [pays_transferFunds_iff hevent, hno]
      simp [Event.isPayout]
    | depositFunds | crossOutFunds | completed | unrecognized =>
      have hpass : b.NoPayout log := hno.2 rfl
      simp [hpass, not_pays_of_noPayout hpass]

theorem payout?_eq_some_iff :
    b.payout? logs = some p ↔ Log.First b.NoPayout (b.Pays · p) logs := by
  induction logs with
  | nil => exact iff_of_false nofun Log.not_first_nil
  | cons log logs ih => rw [payout?_cons_eq_some_iff, Log.first_cons, ih]

end Pays

theorem uncompleted_withCompletion (completing : Option Receipt) :
    (b.withCompletion completing r).uncompleted = r.uncompleted := by
  obtain ⟨platformTxHash, signers, heq⟩ := b.withCompletion_eq completing r
  rw [heq]
  rfl

/-- The record of a payout before its completion is looked up. -/
def payoutRecord (tx : Transaction) (platformTxHash : String) (p : Payout) : Record :=
  { Record.ofTransaction .withdrawal tx p.asset with
    platformTxHash := some platformTxHash, recipient := p.recipient, value := p.amount }

theorem withdrawalRecord?_eq_some_iff {h : String} :
    b.withdrawalRecord? tx h receipt = some r ↔ receipt.status = true ∧
      ∃ p, Log.First b.NoPayout (b.Pays · p) receipt.logs ∧
        r = b.withCompletion (some receipt) (payoutRecord tx h p) := by
  unfold withdrawalRecord?
  split
  next hstatus =>
    simp only [hstatus, true_and, Option.map_eq_some_iff, payout?_eq_some_iff]
    constructor
    · rintro ⟨p, hp, rfl⟩
      exact ⟨p, hp, rfl⟩
    · rintro ⟨p, hp, rfl⟩
      exact ⟨p, hp, rfl⟩
  next hstatus => simp [hstatus]

/-- Logs behind the deciding one count for nothing but the completion. -/
theorem withdrawalRecord?_uncompleted {h : String} {before after after' : List Log}
    (hstatus : receipt'.status = receipt.status) (hdecides : ¬ b.NoPayout log)
    (hlogs : receipt.logs = before ++ log :: after)
    (hlogs' : receipt'.logs = before ++ log :: after') :
    (b.withdrawalRecord? tx h receipt').map Record.uncompleted
      = (b.withdrawalRecord? tx h receipt).map Record.uncompleted := by
  have hpayout : b.payout? receipt'.logs = b.payout? receipt.logs := by
    apply Option.ext
    intro p
    rw [payout?_eq_some_iff, payout?_eq_some_iff, hlogs, hlogs']
    exact Log.first_append_cons hdecides before after' after
  have hcompletion : ∀ completing,
      Record.uncompleted ∘ b.withCompletion completing = Record.uncompleted :=
    fun completing => funext fun r => uncompleted_withCompletion completing
  unfold withdrawalRecord?
  rw [hstatus, hpayout]
  split
  · rw [Option.map_map, Option.map_map]
    change Option.map ((Record.uncompleted ∘ b.withCompletion _) ∘ _) _
      = Option.map ((Record.uncompleted ∘ b.withCompletion _) ∘ _) _
    rw [hcompletion, hcompletion]
  · rfl

theorem parseWithdrawal_eq_some_iff :
    (b.parseWithdrawal tx supplied).outcome past = .ok (some r) ↔
      ∃ h receipt, b.targets tx = true ∧ b.classify tx.input = .withdrawal h ∧
        b.HasReceipt tx past supplied receipt ∧ b.withdrawalRecord? tx h receipt = some r := by
  constructor
  · intro houtcome
    exact ends_parseWithdrawal.of_outcome houtcome r rfl
  · rintro ⟨h, receipt, htargets, hclass, hreceipt, hmade⟩
    rw [outcome_parseWithdrawal hreceipt, withdrawalHash?_of_classify htargets hclass,
      Option.bind_some, hmade]

/-- A withdrawal is accepted exactly if it calls the contract to withdraw, was carried out, and the
first log that does not decode or pays out pays something out. That log gives the record its
recipient, value and asset, and whatever stands behind it, only the completion can differ. -/
theorem withdrawal_accepted_iff (b : Bridge) (tx : Transaction) (supplied : Option Receipt)
    (past : Exchanges) :
    ((∃ r, (b.parseWithdrawal tx supplied).outcome past = .ok (some r)) ↔
      tx.recipient = some b.config.bridgeContract ∧
      (∃ h, b.classify tx.input = .withdrawal h) ∧
      ∃ receipt, b.HasReceipt tx past supplied receipt ∧ receipt.status = true ∧
        ∃ p, Log.First b.NoPayout (b.Pays · p) receipt.logs) ∧
    (∀ r, (b.parseWithdrawal tx supplied).outcome past = .ok (some r) →
      ∃ receipt p, b.HasReceipt tx past supplied receipt ∧
        Log.First b.NoPayout (b.Pays · p) receipt.logs ∧
        r.sender = tx.sender ∧ r.recipient = p.recipient ∧ r.value = p.amount ∧
        r.asset = p.asset) ∧
    ∀ receipt receipt' supplied' past' before log after after',
      b.HasReceipt tx past supplied receipt → b.HasReceipt tx past' supplied' receipt' →
      receipt'.status = receipt.status → ¬ b.NoPayout log →
      receipt.logs = before ++ log :: after → receipt'.logs = before ++ log :: after' →
        ((b.parseWithdrawal tx supplied').outcome past').map (Option.map Record.uncompleted)
          = ((b.parseWithdrawal tx supplied).outcome past).map
              (Option.map Record.uncompleted) := by
  refine ⟨⟨?_, ?_⟩, ?_, ?_⟩
  · rintro ⟨r, houtcome⟩
    obtain ⟨h, receipt, htargets, hclass, hreceipt, hmade⟩ := parseWithdrawal_eq_some_iff.1 houtcome
    obtain ⟨hstatus, p, hfirst, -⟩ := withdrawalRecord?_eq_some_iff.1 hmade
    exact ⟨targets_iff.1 htargets, ⟨h, hclass⟩, receipt, hreceipt, hstatus, p, hfirst⟩
  · rintro ⟨htargets, ⟨h, hclass⟩, receipt, hreceipt, hstatus, p, hfirst⟩
    have hmade : b.withdrawalRecord? tx h receipt
        = some (b.withCompletion (some receipt) (payoutRecord tx h p)) :=
      withdrawalRecord?_eq_some_iff.2 ⟨hstatus, p, hfirst, rfl⟩
    exact ⟨_, parseWithdrawal_eq_some_iff.2
      ⟨h, receipt, targets_iff.2 htargets, hclass, hreceipt, hmade⟩⟩
  · intro r houtcome
    obtain ⟨h, receipt, -, -, hreceipt, hmade⟩ := parseWithdrawal_eq_some_iff.1 houtcome
    obtain ⟨-, p, hfirst, rfl⟩ := withdrawalRecord?_eq_some_iff.1 hmade
    obtain ⟨platformTxHash, signers, heq⟩ :=
      b.withCompletion_eq (some receipt) (payoutRecord tx h p)
    rw [heq]
    exact ⟨receipt, p, hreceipt, hfirst, rfl, rfl, rfl, rfl⟩
  · intro receipt receipt' supplied' past' before log after after' hreceipt hreceipt' hstatus
      hdecides hlogs hlogs'
    rw [outcome_parseWithdrawal hreceipt, outcome_parseWithdrawal hreceipt']
    cases b.withdrawalHash? tx with
    | none => rfl
    | some h =>
      exact congrArg Except.ok (withdrawalRecord?_uncompleted hstatus hdecides hlogs hlogs')

/-- A payout of the native coin after a log of something else, once with a larger payout and a
completion behind it and once with a log that does not decode; and a payout of a registered token. -/
theorem withdrawal_accepted_whatever_follows :
    let b := { Sample.plainBridge Sample.emptyChain with
      tokens := TokenTable.empty.register ⟨Sample.token, 7, 6, "token"⟩ }
    let s := Sample.plainSignatures
    let tx := Sample.transaction (.fill 2) Sample.relayer Sample.bridgeContract 0
      (Abi.encodeCall s.withdraw [.string "p1", .address Sample.user, .uint 7, .bool false,
        .address .zero, .bytes []])
    let coin := Sample.receipt tx.hash (⟨Sample.user, [], []⟩ ::
      .ofTransferFunds s Sample.bridgeContract Sample.user 7 ::
      [.ofTransferFunds s Sample.bridgeContract Sample.relayer 9,
        .ofCompleted s Sample.bridgeContract .withdrawal "p2"])
    let coin' := Sample.receipt tx.hash (⟨Sample.user, [], []⟩ ::
      .ofTransferFunds s Sample.bridgeContract Sample.user 7 ::
      [⟨Sample.user, [s.transferFunds], []⟩])
    let token := Sample.receipt tx.hash
      [.ofTransfer s Sample.token Sample.bridgeContract Sample.user 9,
        .ofTransferFunds s Sample.bridgeContract Sample.user 7]
    let r : Record := ⟨.fill 2, 100, .withdrawal, Sample.relayer, Sample.user, 7, .native 1 18, none,
      [Sample.relayer], some "p2", [], []⟩
    let r' : Record := ⟨.fill 2, 100, .withdrawal, Sample.relayer, Sample.user, 9,
      .token Sample.token 7 6, none, [], some "p1", [], []⟩
    ((b.parseWithdrawal tx (some coin)).outcome [] = .ok (some r) ∧
        Log.First b.NoPayout (b.Pays · ⟨Sample.user, 7, .native 1 18⟩) coin.logs) ∧
      ((b.parseWithdrawal tx (some coin')).outcome []).map (Option.map Record.uncompleted)
        = .ok (some r.uncompleted) ∧
      (b.parseWithdrawal tx (some token)).outcome [] = .ok (some r') ∧
        Log.First b.NoPayout (b.Pays · ⟨Sample.user, 9, .token Sample.token 7 6⟩) token.logs := by
  intro b s tx coin coin' token r r'
  have hcoin : (b.parseWithdrawal tx (some coin)).outcome [] = .ok (some r) :=
    ok_of_toOption (by decide +kernel)
  have htoken : (b.parseWithdrawal tx (some token)).outcome [] = .ok (some r') :=
    ok_of_toOption (by decide +kernel)
  have hdecides : ¬ b.NoPayout (.ofTransferFunds s Sample.bridgeContract Sample.user 7) := by
    rintro ⟨e, he, hno⟩
    cases he
    cases hno
  have hfirst : ∀ receipt found, (b.parseWithdrawal tx (some receipt)).outcome [] = .ok (some found) →
      Log.First b.NoPayout (b.Pays · ⟨found.recipient, found.value, found.asset⟩) receipt.logs := by
    intro receipt found hfound
    obtain ⟨-, hcarries, -⟩ := withdrawal_accepted_iff b tx (some receipt) []
    obtain ⟨_, p, hreceipt, hfirst, -, hrecipient, hvalue, hasset⟩ := hcarries found hfound
    cases hreceipt
    rw [hrecipient, hvalue, hasset]
    exact hfirst
  obtain ⟨-, -, hbehind⟩ := withdrawal_accepted_iff b tx (some coin) []
  refine ⟨⟨hcoin, hfirst coin r hcoin⟩, ?_, htoken, hfirst token r' htoken⟩
  rw [hbehind coin coin' (some coin') [] [_] _ _ _ (.supplied _) (.supplied _) rfl hdecides rfl rfl,
    hcoin]
  rfl

/-! ## Native cross-outs -/

/-- Whether a log is the event of a cross-out of what a transaction sends, by its sender. -/
def CrossesOut (b : Bridge) (tx : Transaction) (recipient : String) (log : Log) : Prop :=
  log.topics.head? = some b.config.signatures.crossOutFunds ∧
    b.event log = .ok (.crossOutFunds tx.sender recipient tx.value .zero)

theorem nativeCrossOut?_eq_some_iff : b.nativeCrossOut? tx receipt = some r ↔
    tx.value ≠ 0 ∧ ∃ recipient,
      Log.First (fun log => log.topics.head? ≠ some b.config.signatures.crossOutFunds)
        (b.CrossesOut tx recipient) receipt.logs ∧
      r = { Record.ofTransaction .deposit tx b.nativeAsset with
        value := tx.value, counterpart := some recipient } := by
  unfold nativeCrossOut?
  constructor
  · intro h
    split at h
    · cases h
    next log hlog =>
      obtain ⟨htopic, before, after, hlogs, hbefore⟩ := List.find?_eq_some_iff_append.1 hlog
      split at h
      next sender recipient amount token hevent =>
        obtain ⟨⟨rfl, rfl, rfl, hamount⟩, hr⟩ := Option.ite_none_right_eq_some.1 h
        cases hr
        exact ⟨hamount, recipient,
          ⟨before, log, after, hlogs, by simpa using hbefore, by simpa using htopic, hevent⟩, rfl⟩
      · cases h
  · rintro ⟨hvalue, recipient, ⟨before, log, after, hlogs, hbefore, htopic, hevent⟩, rfl⟩
    have hlog : receipt.logs.find? (·.topics.head? = some b.config.signatures.crossOutFunds)
        = some log := by
      rw [List.find?_eq_some_iff_append]
      exact ⟨by simpa using htopic, before, after, hlogs, by simpa using hbefore⟩
    rw [hlog]
    dsimp only
    rw [hevent]
    exact if_pos ⟨rfl, rfl, rfl, hvalue⟩

end Bridge
end EvmBridge
