import EvmBridge.Parsing
import EvmBridge.Proofs.Outcome

/-! # What accepted transactions are made of

Parsing turned round: where a record is returned, by which route the transaction went, which receipt
was at hand, and which record the two make. `Bridge.Routes` says what a transaction is that takes a
route, `Bridge.HasReceipt` where a receipt comes from, and there is one lemma for each way of parsing.
-/

namespace EvmBridge
set_option autoImplicit false
open EvmBridge.Action

theorem Node.ends_ask {n : Node} {limit : UInt64} {c : NodeCall} {past : Exchanges} :
    Ends (n.ask limit c) past (fun a _ => n.respond past c limit = .answer a) fun _ _ => True := by
  unfold Ends Node.ask
  cases n.respond past c limit with
  | answer a => rfl
  | failed e => trivial
  | late => trivial

theorem TokenTable.contract_of_lookup {t : TokenTable} {contract : Address} {info : TokenInfo}
    (h : t.lookup contract = some info) : info.contract = contract := t.filed h

namespace Bridge
variable {b : Bridge} {tx : Transaction} {supplied : Option Receipt} {past : Exchanges}

theorem targets_iff : b.targets tx = true ↔ tx.recipient = some b.config.bridgeContract := by
  simp [targets]

/-- Whether a transaction sends some of the native coin to the contract, and no calldata. -/
def SendsCoin (b : Bridge) (tx : Transaction) : Prop :=
  tx.recipient = some b.config.bridgeContract ∧ tx.value ≠ 0 ∧ tx.input = []

instance (b : Bridge) (tx : Transaction) : Decidable (b.SendsCoin tx) :=
  inferInstanceAs (Decidable (_ ∧ _ ∧ _))

theorem sendsNative_iff : b.sendsNative tx = true ↔ b.SendsCoin tx := by
  simp [sendsNative, SendsCoin, targets_iff, and_assoc]

/-! ## Routes -/

/-- What a transaction is that takes a route. -/
inductive Routes (b : Bridge) (tx : Transaction) : DepositRoute → Prop where
  | native (hmethod : b.config.signatures.methodOf? tx.input ≠ some .crossOut)
      (hsends : b.sendsNative tx = true) : Routes b tx .native
  | token {info : TokenInfo} (hmethod : b.config.signatures.methodOf? tx.input ≠ some .crossOut)
      (hinfo : b.tokens.lookup info.contract = some info) : Routes b tx (.token info)
  | crossOut {args : Call.CrossOut}
      (hmethod : b.config.signatures.methodOf? tx.input = some .crossOut)
      (htargets : b.targets tx = true)
      (hheight : b.config.crossOutActivationHeight ≤ tx.blockHeight.getD 0)
      (hargs : Call.crossOut tx.input = .ok args) : Routes b tx (.crossOut args)

theorem routes_of_depositRoute? {route : DepositRoute} (h : b.depositRoute? tx = some route) :
    b.Routes tx route := by
  unfold depositRoute? at h
  split at h
  · cases h
  next recipient hrecipient =>
    split at h
    next hmethod =>
      obtain ⟨args, ha, rfl⟩ := Option.map_eq_some_iff.1 h
      unfold crossOutArguments? at ha
      split at ha
      next hc =>
        cases hargs : Call.crossOut tx.input with
        | error e =>
          rw [hargs] at ha
          cases ha
        | ok args' =>
          rw [hargs] at ha
          cases ha
          exact .crossOut hmethod hc.1 hc.2 hargs
      · cases ha
    next hmethod =>
      split at h
      next hsends =>
        cases h
        exact .native hmethod hsends
      · obtain ⟨info, hinfo, rfl⟩ := Option.map_eq_some_iff.1 h
        exact .token hmethod (TokenTable.contract_of_lookup hinfo ▸ hinfo)

/-! ## Receipts -/

/-- Whether a receipt is at hand: the supplied one, or else the node's. -/
inductive HasReceipt (b : Bridge) (tx : Transaction) (past : Exchanges) :
    Option Receipt → Receipt → Prop where
  | supplied (r : Receipt) : HasReceipt b tx past (some r) r
  | served {r : Receipt}
      (h : b.node.respond past (.receipt tx.hash) b.config.rpcTimeout = .answer (some r)) :
      HasReceipt b tx past none r

theorem ends_receiptFor :
    Ends (b.receiptFor tx supplied) past (fun found _ => ∀ r ∈ found, b.HasReceipt tx past supplied r)
      fun _ _ => True := by
  cases supplied with
  | some r =>
    refine ends_pure.2 fun r' hr => ?_
    cases hr
    exact .supplied r
  | none =>
    refine Node.ends_ask.mono (fun found _ h r hr => ?_) fun _ _ _ => trivial
    cases hr
    exact .served h

/-- The exchanges when a receipt is at hand: it was asked for unless it was supplied. -/
def receiptAsked (tx : Transaction) (past : Exchanges) : Option Receipt → Exchanges
  | some _ => past
  | none => ⟨.receipt tx.hash, true⟩ :: past

theorem receiptFor_of_hasReceipt {receipt : Receipt} (h : b.HasReceipt tx past supplied receipt) :
    b.receiptFor tx supplied past = .ok (some receipt) (receiptAsked tx past supplied) := by
  cases h with
  | supplied => rfl
  | served hserved => simp only [receiptFor, Node.ask, hserved, receiptAsked]

theorem hasReceipt_iff {receipt : Receipt} : b.HasReceipt tx past supplied receipt ↔
    ∃ asked, b.receiptFor tx supplied past = .ok (some receipt) asked := by
  constructor
  · intro h
    exact ⟨_, receiptFor_of_hasReceipt h⟩
  · rintro ⟨asked, h⟩
    exact (ends_of_ok h).1 ends_receiptFor receipt rfl

/-! ## Views -/

theorem ends_boolView {data : Bytes} {latest : Bool} :
    Ends (b.boolView data latest) past
      (fun value _ => ∃ output,
        b.node.respond past (.view b.config.bridgeContract data latest) b.config.rpcTimeout
          = .answer output ∧ Call.boolResult output = .ok value)
      fun _ _ => True := by
  refine Node.ends_ask.bind (fun output _ houtput => ends_ofExcept.2 ?_) fun _ _ _ => trivial
  cases hresult : Call.boolResult output with
  | ok value => exact ⟨output, houtput, hresult⟩
  | error fault => trivial

/-- A view answers with what the output that the node gives for it is read as. -/
theorem outcome_boolView_eq_ok_iff {data : Bytes} {latest value : Bool} :
    (b.boolView data latest).outcome past = .ok value ↔
      ∃ output, b.node.respond past (.view b.config.bridgeContract data latest) b.config.rpcTimeout
          = .answer output ∧ Call.boolResult output = .ok value := by
  constructor
  · exact ends_boolView.of_outcome
  · rintro ⟨output, houtput, hresult⟩
    simp only [boolView, outcome, EStateM.run, bind, EStateM.bind, Node.ask, houtput, hresult]
    rfl

/-! ## Completion -/

/-- A completion sets the platform transaction and the signers only. -/
theorem withCompletion_eq (completing : Option Receipt) (r : Record) :
    ∃ platformTxHash signers, b.withCompletion completing r
      = { r with platformTxHash := platformTxHash, signers := signers } := by
  unfold withCompletion Record.addSigner
  split
  · split
    · exact ⟨_, _, rfl⟩
    · exact ⟨_, _, rfl⟩
  · exact ⟨_, _, rfl⟩

/-! ## Parsing -/

theorem outcome_parseDeposit_of_no_route (h : b.depositRoute? tx = none) :
    (b.parseDeposit tx supplied).outcome past = .ok none := by
  unfold parseDeposit
  rw [h]
  rfl

/-- With a receipt at hand, a deposit is what its route makes of the receipt, and the node is asked
for nothing but a minter. -/
theorem outcome_parseDeposit {route : DepositRoute} {receipt : Receipt} {asked : Exchanges}
    (hroute : b.depositRoute? tx = some route)
    (hreceipt : b.receiptFor tx supplied past = .ok (some receipt) asked) :
    (b.parseDeposit tx supplied).outcome past
      = match b.depositRecord? tx route receipt, b.minterToCheck? route with
        | some record, some token =>
          ((b.isMinter token false).outcome asked).map fun minter =>
            if minter then some record else none
        | record, _ => .ok record := by
  simp only [outcome, EStateM.run, parseDeposit, hroute, bind, EStateM.bind, hreceipt,
    Option.bind_some]
  cases b.depositRecord? tx route receipt with
  | none => rfl
  | some record =>
    cases b.minterToCheck? route with
    | none => rfl
    | some token =>
      simp only [EStateM.bind]
      cases b.isMinter token false asked <;> rfl

/-- With a receipt at hand, a deposit is accepted if its route makes a record of the receipt and the
minter that has to be asked for is registered. -/
theorem outcome_parseDeposit_eq_some_iff {route : DepositRoute} {receipt : Receipt}
    {asked : Exchanges} {r : Record} (hroute : b.depositRoute? tx = some route)
    (hreceipt : b.receiptFor tx supplied past = .ok (some receipt) asked) :
    (b.parseDeposit tx supplied).outcome past = .ok (some r) ↔
      b.depositRecord? tx route receipt = some r ∧
        ∀ token ∈ b.minterToCheck? route, (b.isMinter token false).outcome asked = .ok true := by
  rw [outcome_parseDeposit hroute hreceipt]
  cases b.depositRecord? tx route receipt with
  | none => simp
  | some record =>
    cases b.minterToCheck? route with
    | none => simp
    | some token =>
      simp only [Option.mem_some_iff, forall_eq']
      rcases (b.isMinter token false).outcome asked with _ | (_ | _) <;> simp [Except.map]

theorem outcome_parseDeposit_unchecked {route : DepositRoute} {receipt : Receipt}
    (hroute : b.depositRoute? tx = some route) (hminter : b.minterToCheck? route = none)
    (hreceipt : b.HasReceipt tx past supplied receipt) :
    (b.parseDeposit tx supplied).outcome past = .ok (b.depositRecord? tx route receipt) := by
  obtain ⟨asked, hreceipt⟩ := hasReceipt_iff.1 hreceipt
  rw [outcome_parseDeposit hroute hreceipt, hminter]
  cases b.depositRecord? tx route receipt <;> rfl

theorem ends_parseDeposit_route :
    Ends (b.parseDeposit tx supplied) past
      (fun found _ => ∀ r ∈ found, ∃ route receipt, b.depositRoute? tx = some route ∧
        b.HasReceipt tx past supplied receipt ∧ b.depositRecord? tx route receipt = some r)
      fun _ _ => True := by
  unfold parseDeposit
  cases hroute : b.depositRoute? tx with
  | none => exact ends_pure.2 (by simp)
  | some route =>
    refine ends_receiptFor.bind (fun receipt past' hreceipt => ?_) fun _ _ _ => trivial
    have hmade : ∀ r ∈ receipt.bind (b.depositRecord? tx route), ∃ route' receipt,
        some route = some route' ∧ b.HasReceipt tx past supplied receipt ∧
          b.depositRecord? tx route' receipt = some r := fun r hr => by
      obtain ⟨x, hx, hr⟩ := Option.bind_eq_some_iff.1 hr
      exact ⟨route, x, rfl, hreceipt x hx, hr⟩
    cases hf : receipt.bind (b.depositRecord? tx route) with
    | none => exact ends_pure.2 (by simp)
    | some record =>
      rw [hf] at hmade
      cases b.minterToCheck? route with
      | none => exact ends_pure.2 hmade
      | some token =>
        refine (Ends.trivial _ _).bind (fun minter _ _ => ?_) fun _ _ _ => trivial
        refine ends_pure.2 fun r hr => ?_
        split at hr
        · exact hmade r hr
        · cases hr

theorem ends_parseDeposit :
    Ends (b.parseDeposit tx supplied) past
      (fun found _ => ∀ r ∈ found, ∃ route receipt, b.Routes tx route ∧
        b.HasReceipt tx past supplied receipt ∧ b.depositRecord? tx route receipt = some r)
      fun _ _ => True := by
  refine ends_parseDeposit_route.mono (fun found _ h r hr => ?_) fun _ _ _ => trivial
  obtain ⟨route, receipt, hroute, hmade⟩ := h r hr
  exact ⟨route, receipt, routes_of_depositRoute? hroute, hmade⟩

theorem withdrawalHash?_eq_some {h : String} (hw : b.withdrawalHash? tx = some h) :
    b.targets tx = true ∧ b.classify tx.input = .withdrawal h := by
  unfold withdrawalHash? at hw
  split at hw
  next ht =>
    split at hw
    next hc =>
      cases hw
      exact ⟨ht, hc⟩
    · cases hw
  · cases hw

theorem withdrawalHash?_of_classify {h : String} (htargets : b.targets tx = true)
    (hclass : b.classify tx.input = .withdrawal h) : b.withdrawalHash? tx = some h := by
  simp only [withdrawalHash?, htargets, hclass, if_true]

theorem outcome_parseWithdrawal {receipt : Receipt}
    (hreceipt : b.HasReceipt tx past supplied receipt) :
    (b.parseWithdrawal tx supplied).outcome past
      = .ok ((b.withdrawalHash? tx).bind fun h => b.withdrawalRecord? tx h receipt) := by
  obtain ⟨asked, hreceipt⟩ := hasReceipt_iff.1 hreceipt
  unfold parseWithdrawal
  cases b.withdrawalHash? tx with
  | none => rfl
  | some h =>
    simp only [outcome, EStateM.run, bind, EStateM.bind, hreceipt]
    rfl

theorem ends_parseWithdrawal :
    Ends (b.parseWithdrawal tx supplied) past
      (fun found _ => ∀ r ∈ found, ∃ h receipt, b.targets tx = true ∧
        b.classify tx.input = .withdrawal h ∧ b.HasReceipt tx past supplied receipt ∧
        b.withdrawalRecord? tx h receipt = some r)
      fun _ _ => True := by
  unfold parseWithdrawal
  cases hw : b.withdrawalHash? tx with
  | none => exact ends_pure.2 (by simp)
  | some h =>
    refine ends_receiptFor.bind (fun receipt _ hreceipt => ?_) fun _ _ _ => trivial
    refine ends_pure.2 fun r hr => ?_
    obtain ⟨x, hx, hr⟩ := Option.bind_eq_some_iff.1 hr
    obtain ⟨htargets, hclass⟩ := withdrawalHash?_eq_some hw
    exact ⟨h, x, htargets, hclass, hreceipt x hx, hr⟩

/-- A draft is completed by the receipt that is supplied or asked for. -/
theorem ends_parseDraft_receipt {draft : Option Record} :
    Ends (b.parseDraft tx draft supplied) past
      (fun found _ => ∀ r ∈ found, ∃ d ∈ draft, ∃ receipt asked,
        b.receiptFor tx supplied past = .ok receipt asked ∧ r = b.withCompletion receipt d)
      fun _ _ => True := by
  unfold parseDraft
  cases draft with
  | none => exact ends_pure.2 (by simp)
  | some d =>
    refine (Ends.trivial _ _).with_eq.bind (fun receipt asked h => ?_) fun _ _ _ => trivial
    refine ends_pure.2 fun r hr => ?_
    cases hr
    exact ⟨d, rfl, receipt, asked, h.2, rfl⟩

theorem ends_parseDraft {draft : Option Record} :
    Ends (b.parseDraft tx draft supplied) past
      (fun found _ => ∀ r ∈ found, ∃ d ∈ draft, ∃ receipt, r = b.withCompletion receipt d)
      fun _ _ => True := by
  refine ends_parseDraft_receipt.mono (fun found _ h r hr => ?_) fun _ _ _ => trivial
  obtain ⟨d, hd, receipt, -, -, hcompleted⟩ := h r hr
  exact ⟨d, hd, receipt, hcompleted⟩

/-- A transaction that is parsed by its hash is one that the node serves. -/
theorem ends_transaction {hash : Hash} :
    Ends (b.transaction hash) past
      (fun found _ => ∀ tx ∈ found, tx.recipient.isSome = true ∧
        b.node.respond past (.transaction hash) b.config.rpcTimeout = .answer (some tx))
      fun _ _ => True := by
  unfold transaction
  refine Node.ends_ask.bind (fun found _ h => ?_) fun _ _ _ => trivial
  refine ends_pure.2 fun tx htx => ?_
  obtain ⟨rfl, hsome⟩ := Option.filter_eq_some_iff.1 htx
  exact ⟨hsome, h⟩

/-- Parsing by hash goes on with the transaction that the node serves. -/
theorem outcome_parseByHash_of_transaction {kind : TxKind} {hash : Hash} {asked : Exchanges}
    (h : b.transaction hash past = .ok (some tx) asked) :
    (b.parseByHash kind hash).outcome past = (b.parse kind tx none).outcome asked := by
  simp only [Action.outcome, EStateM.run, parseByHash, bind, EStateM.bind, h]

end Bridge
end EvmBridge
