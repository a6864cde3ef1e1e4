import EvmBridge.Proofs.Parsing.DecidingLog

/-! # Who signed, and for which platform transaction

Withdrawals, membership changes and upgrades all take their signers and their platform transaction from
the last log of the receipt, and without a completion there the platform transaction is the one that the
calldata names. `Bridge.completed_of_parsed` says so for all three, and that no other log matters.
-/

namespace EvmBridge
set_option autoImplicit false
open EvmBridge.Action

/-- The last log of a receipt, if there are a receipt and a log. -/
def Receipt.lastLog? (receipt : Option Receipt) : Option Log := receipt.bind (·.logs.getLast?)

namespace Bridge

/-- Whether the last log of a receipt announces that a platform transaction is completed. -/
def Announces (b : Bridge) (receipt : Option Receipt) (platformTxHash : String) : Prop :=
  ∃ log ∈ Receipt.lastLog? receipt, ∃ kind, b.event log = .ok (.completed kind platformTxHash)

/-- Whether calldata calls a method of the contract with a text as its first argument. -/
def Names (b : Bridge) (input : Bytes) (text : String) : Prop :=
  ∃ m arguments, b.config.signatures.methodOf? input = some m ∧
    Call.arguments m input = .ok (.string text :: arguments)

/-- What a record says of the completion of an action, given the receipt at hand. -/
structure Completed (b : Bridge) (tx : Transaction) (receipt : Option Receipt) (r : Record) :
    Prop where
  /-- The signers are those that one gets by asking for them alone. -/
  signers : r.signers = (receipt.bind fun x => b.signers? x tx.sender).getD []
  announced : ∀ h, b.Announces receipt h → r.platformTxHash = some h
  named : (∀ h, ¬ b.Announces receipt h) → ∃ h, b.Names tx.input h ∧ r.platformTxHash = some h

variable {b : Bridge} {tx : Transaction} {receipt receipt' : Option Receipt} {r r' d : Record}

/-! ## The last log -/

theorem announces_iff {h : String} :
    b.Announces receipt h ↔ receipt.bind b.completionHash? = some h := by
  rw [Announces, Receipt.lastLog?]
  cases receipt with
  | none => simp
  | some x => exact completionHash?_eq_some_iff.symm

theorem bind_signers? (receipt : Option Receipt) (sender : Address) :
    receipt.bind (fun x => b.signers? x sender)
      = (receipt.bind b.completionHash?).map fun _ => [sender] := by
  cases receipt <;> rfl

/-! ## The first argument -/

theorem names_of_classify {input : Bytes} {h : String}
    (hclass : (b.classify input).platformTxHash? = some h) : b.Names input h := by
  obtain ⟨m, rest, -, -, hmethod, harguments⟩ := Signatures.arguments_of_classify hclass
  exact ⟨m, rest, hmethod, harguments⟩

theorem Names.eq {input : Bytes} {h h' : String} (hn : b.Names input h) (hn' : b.Names input h') :
    h = h' := by
  obtain ⟨m, rest, hmethod, hargs⟩ := hn
  obtain ⟨m', rest', hmethod', hargs'⟩ := hn'
  rw [hmethod] at hmethod'
  cases hmethod'
  rw [hargs] at hargs'
  cases hargs'
  rfl

/-! ## Records -/

/-- Nothing of a receipt but its last log counts. -/
theorem Completed.eq_of_lastLog (hr : b.Completed tx receipt r) (hr' : b.Completed tx receipt' r')
    (hlast : Receipt.lastLog? receipt = Receipt.lastLog? receipt') :
    r'.signers = r.signers ∧ r'.platformTxHash = r.platformTxHash := by
  have hann : ∀ h, b.Announces receipt h ↔ b.Announces receipt' h := by
    intro h
    rw [Announces, Announces, hlast]
  have hhash : receipt.bind b.completionHash? = receipt'.bind b.completionHash? := by
    refine Option.ext fun h => ?_
    rw [← announces_iff, ← announces_iff, hann]
  constructor
  · rw [hr.signers, hr'.signers, bind_signers?, bind_signers?, hhash]
  · by_cases hsome : ∃ h, b.Announces receipt h
    · obtain ⟨h, ha⟩ := hsome
      rw [hr.announced h ha, hr'.announced h ((hann h).1 ha)]
    · rw [not_exists] at hsome
      obtain ⟨h, hnames, heq⟩ := hr.named hsome
      obtain ⟨h', hnames', heq'⟩ := hr'.named fun h ha => hsome h ((hann h).2 ha)
      rw [heq, heq', hnames.eq hnames']

/-- A draft without signers that has its platform transaction from the calldata. -/
theorem completed_withCompletion (hsigners : d.signers = []) (hsender : d.sender = tx.sender)
    (hnamed : ∃ h, b.Names tx.input h ∧ d.platformTxHash = some h) :
    b.Completed tx receipt (b.withCompletion receipt d) := by
  rw [withCompletion_of_unsigned hsigners]
  cases hc : receipt.bind b.completionHash? with
  | none =>
    refine ⟨?_, fun h ha => ?_, fun _ => hnamed⟩
    · rw [bind_signers?, hc]
      exact hsigners
    · rw [announces_iff.1 ha] at hc
      cases hc
  | some h =>
    have hann := announces_iff.2 hc
    refine ⟨?_, fun h' ha => ?_, fun hnone => absurd hann (hnone h)⟩
    · rw [bind_signers?, hc]
      exact congrArg (fun sender => [sender]) hsender
    · rw [announces_iff.1 ha] at hc
      exact hc.symm

theorem ends_parse_completed {kind : TxKind} (hkind : kind ≠ .deposit) {supplied : Option Receipt}
    {past : Exchanges} :
    Ends (b.parse kind tx supplied) past
      (fun found _ => ∀ r ∈ found, ∃ receipt asked,
        b.receiptFor tx supplied past = .ok receipt asked ∧ b.Completed tx receipt r)
      fun _ _ => True := by
  cases kind with
  | deposit => exact absurd rfl hkind
  | withdrawal =>
    refine ends_parseWithdrawal.mono (fun found _ h r hr => ?_) fun _ _ _ => trivial
    obtain ⟨h, receipt, -, hclass, hreceipt, hmade⟩ := h r hr
    obtain ⟨-, p, -, rfl⟩ := withdrawalRecord?_eq_some_iff.1 hmade
    obtain ⟨asked, hreceipt⟩ := hasReceipt_iff.1 hreceipt
    exact ⟨some receipt, asked, hreceipt,
      completed_withCompletion rfl rfl ⟨h, names_of_classify (by rw [hclass]; rfl), rfl⟩⟩
  | membershipChange =>
    refine ends_parseDraft_receipt.mono (fun found _ h r hr => ?_) fun _ _ _ => trivial
    obtain ⟨d, hd, receipt, asked, hreceipt, rfl⟩ := h r hr
    obtain ⟨-, h, args, hclass, -, rfl⟩ := membershipDraft?_eq_some_iff.1 hd
    exact ⟨receipt, asked, hreceipt,
      completed_withCompletion rfl rfl ⟨h, names_of_classify (by rw [hclass]; rfl), rfl⟩⟩
  | upgradeAuthorization =>
    refine ends_parseDraft_receipt.mono (fun found _ h r hr => ?_) fun _ _ _ => trivial
    obtain ⟨d, hd, receipt, asked, hreceipt, rfl⟩ := h r hr
    obtain ⟨-, h, hclass, rfl⟩ := upgradeDraft?_eq_some_iff.1 hd
    exact ⟨receipt, asked, hreceipt,
      completed_withCompletion rfl rfl ⟨h, names_of_classify (by rw [hclass]; rfl), rfl⟩⟩

/-- Whichever action is accepted, with a receipt that is supplied or asked for or with none: its signers
and its platform transaction are those of the last log and of the calldata, and are the same for every
receipt with that last log. -/
theorem completed_of_parsed {kind : TxKind} (hkind : kind ≠ .deposit) {supplied : Option Receipt}
    {past : Exchanges} (h : (b.parse kind tx supplied).outcome past = .ok (some r)) :
    ∃ receipt asked, b.receiptFor tx supplied past = .ok receipt asked ∧
      b.Completed tx receipt r ∧
      ∀ supplied' past' receipt' asked' r',
        b.receiptFor tx supplied' past' = .ok receipt' asked' →
        Receipt.lastLog? receipt = Receipt.lastLog? receipt' →
        (b.parse kind tx supplied').outcome past' = .ok (some r') →
        r'.signers = r.signers ∧ r'.platformTxHash = r.platformTxHash := by
  obtain ⟨receipt, asked, hreceipt, hr⟩ := (ends_parse_completed hkind).of_outcome h r rfl
  refine ⟨receipt, asked, hreceipt, hr, fun supplied' past' receipt' asked' r' h₁ hlast h' => ?_⟩
  obtain ⟨_, _, h₂, hr'⟩ := (ends_parse_completed hkind).of_outcome h' r' rfl
  rw [h₁] at h₂
  cases h₂
  exact hr.eq_of_lastLog hr' hlast

/-- A withdrawal whose last log announces the completion of an upgrade. The other completion does not
matter. -/
theorem completed_of_parsed_upgrade :
    let b := Sample.plainBridge Sample.emptyChain
    let s := b.config.signatures
    let tx := Sample.transaction (.fill 2) Sample.relayer Sample.bridgeContract 0
      (Abi.encodeCall s.withdraw [.string "p1", .address Sample.user, .uint 7, .bool false,
        .address .zero, .bytes []])
    let paid := Sample.receipt tx.hash [.ofTransferFunds s Sample.bridgeContract Sample.user 7,
      .ofCompleted s Sample.bridgeContract .withdrawal "p2",
      .ofCompleted s Sample.bridgeContract .upgradeAuthorization "p3"]
    let r := { Record.ofTransaction .withdrawal tx b.nativeAsset with
      recipient := Sample.user, value := 7, signers := [Sample.relayer],
      platformTxHash := some "p3" }
    (b.parse .withdrawal tx (some paid)).outcome [] = .ok (some r) ∧
      b.Completed tx (some paid) r := by
  intro b s tx paid r
  have hparse : (b.parse .withdrawal tx (some paid)).outcome [] = .ok (some r) :=
    ok_of_toOption (by decide +kernel)
  have hkind : TxKind.withdrawal ≠ .deposit := by decide
  obtain ⟨receipt, asked, hreceipt, hr, -⟩ := completed_of_parsed hkind hparse
  have hpaid : some paid = receipt := (EStateM.Result.ok.inj hreceipt).1
  refine ⟨hparse, ?_⟩
  rw [hpaid]
  exact hr

end Bridge
end EvmBridge
