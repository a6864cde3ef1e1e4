import EvmBridge.Proofs.Parsing.Acceptance
import EvmBridge.Sample

/-! # When parsing fails

Calldata, logs and receipts that do not decode only keep a transaction from being accepted. Parsing
fails where a call of the node fails, and in one place more: a deposit of a bound token asks the
contract whether the token has a minter, and output that is no truth value is passed on as a failure
(`Bridge.MinterFault`). `Bridge.error_beyond_node_iff` says that there is no other place.
-/

namespace EvmBridge
set_option autoImplicit false
open EvmBridge.Action

/-- Whether an error says that the node failed or was late. -/
def BridgeError.isUpstream : BridgeError → Bool
  | .nodeUnavailable _ | .timeout .. => true
  | _ => false

/-- A node whose own failures all say that it is not available. -/
def Node.FailsUpstream (n : Node) : Prop :=
  ∀ past c limit e, n.respond past c limit = .failed e → ∃ detail, e = .nodeUnavailable detail

theorem SimulatedChain.failsUpstream (c : SimulatedChain) : c.node.FailsUpstream := by
  intro past call limit e h
  change c.respond call limit = .failed e at h
  unfold respond at h
  split at h
  · cases h
    exact ⟨_, rfl⟩
  · split at h
    · cases h
    · split at h
      · cases h
        exact ⟨_, rfl⟩
      · cases h

namespace Bridge
variable {b : Bridge} {tx : Transaction} {supplied : Option Receipt} {past : Exchanges}

/-- Whether parsing a transaction as a deposit goes as far as asking for the minter of its token, and
gets output that is at fault as a truth value. -/
inductive MinterFault (b : Bridge) (tx : Transaction) (supplied : Option Receipt) (past : Exchanges)
    (fault : CallFault) : Prop where
  | intro {info : TokenInfo} {receipt : Receipt} {record : Record} {asked : Exchanges}
      {output : Bytes} (hroute : b.depositRoute? tx = some (.token info))
      (hbound : b.tokens.isBound info.assetId = true)
      (hreceipt : b.receiptFor tx supplied past = .ok (some receipt) asked)
      (hrecord : b.tokenDeposit? tx info receipt = some record)
      (houtput : b.node.respond asked (.view b.config.bridgeContract
        (Abi.encodeCall b.config.signatures.isMinter [.address info.contract]) false)
        b.config.rpcTimeout = .answer output)
      (hfault : Call.boolResult output = .error fault)

theorem minterToCheck?_eq_some {route : DepositRoute} {token : Address}
    (h : b.minterToCheck? route = some token) :
    ∃ info, route = .token info ∧ b.tokens.isBound info.assetId = true ∧ info.contract = token := by
  unfold minterToCheck? at h
  split at h
  next info =>
    split at h
    next hbound =>
      cases h
      exact ⟨info, rfl, hbound, rfl⟩
    · cases h
  · cases h

/-! ## Failures of the calls -/

section Upstream
variable (hnode : b.node.FailsUpstream)
include hnode

theorem ends_ask_failing {limit : UInt64} {c : NodeCall} :
    Ends (b.node.ask limit c) past (fun a _ => b.node.respond past c limit = .answer a)
      fun e _ => e.isUpstream = true := by
  unfold Ends Node.ask
  cases hr : b.node.respond past c limit with
  | answer a => rfl
  | failed e =>
    obtain ⟨detail, rfl⟩ := hnode _ _ _ _ hr
    rfl
  | late => rfl

theorem ends_receiptFor_failing :
    Ends (b.receiptFor tx supplied) past (fun _ _ => True) fun e _ => e.isUpstream = true := by
  cases supplied with
  | some r => exact ends_pure.2 trivial
  | none => exact (ends_ask_failing hnode).mono (fun _ _ _ => trivial) fun _ _ h => h

theorem ends_transaction_failing {hash : Hash} :
    Ends (b.transaction hash) past (fun _ _ => True) fun e _ => e.isUpstream = true :=
  (ends_ask_failing hnode).bind (fun _ _ _ => ends_pure.2 trivial) fun _ _ h => h

/-- A view fails with its call, or after it by output that is no truth value. -/
theorem ends_boolView_failing {data : Bytes} {latest : Bool} :
    Ends (b.boolView data latest) past (fun _ _ => True) fun e _ => e.isUpstream = true ∨
      ∃ output fault, b.node.respond past (.view b.config.bridgeContract data latest)
        b.config.rpcTimeout = .answer output ∧ Call.boolResult output = .error fault ∧
        e = fault.toError := by
  refine (ends_ask_failing hnode).bind (fun output _ houtput => ?_) fun _ _ h => .inl h
  refine ends_ofExcept.2 ?_
  cases hresult : Call.boolResult output with
  | ok _ => trivial
  | error fault => exact .inr ⟨output, fault, houtput, hresult, rfl⟩

/-! ## Failures of parsing -/

theorem ends_parseDeposit_failing :
    Ends (b.parseDeposit tx supplied) past (fun _ _ => True) fun e _ => e.isUpstream = true ∨
      ∃ fault : CallFault, e = fault.toError ∧ b.MinterFault tx supplied past fault := by
  unfold parseDeposit
  cases hroute : b.depositRoute? tx with
  | none => exact ends_pure.2 trivial
  | some route =>
    refine (ends_receiptFor_failing hnode).with_eq.bind (fun receipt asked hreceipt => ?_)
      fun _ _ h => .inl h.1
    cases hmade : receipt.bind (b.depositRecord? tx route) with
    | none => exact ends_pure.2 trivial
    | some record =>
      cases hminter : b.minterToCheck? route with
      | none => exact ends_pure.2 trivial
      | some token =>
        refine (ends_boolView_failing hnode).bind (fun _ _ _ => ends_pure.2 trivial) fun e _ he => ?_
        refine he.imp_right ?_
        rintro ⟨output, fault, houtput, hfault, rfl⟩
        obtain ⟨info, rfl, hbound, rfl⟩ := minterToCheck?_eq_some hminter
        obtain ⟨x, rfl, hrecord⟩ := Option.bind_eq_some_iff.1 hmade
        exact ⟨fault, rfl, .intro hroute hbound hreceipt.2 hrecord houtput hfault⟩

theorem ends_parse_failing {kind : TxKind} :
    Ends (b.parse kind tx supplied) past (fun _ _ => True) fun e _ => e.isUpstream = true ∨
      kind = .deposit ∧
        ∃ fault : CallFault, e = fault.toError ∧ b.MinterFault tx supplied past fault := by
  have hdraft : ∀ draft, Ends (b.parseDraft tx draft supplied) past (fun _ _ => True)
      fun e _ => e.isUpstream = true := by
    intro draft
    cases draft with
    | none => exact ends_pure.2 trivial
    | some record =>
      exact (ends_receiptFor_failing hnode).bind (fun _ _ _ => ends_pure.2 trivial) fun _ _ h => h
  cases kind with
  | deposit =>
    exact (ends_parseDeposit_failing hnode).mono (fun _ _ h => h)
      fun _ _ h => h.imp_right fun h => ⟨rfl, h⟩
  | withdrawal =>
    refine Ends.mono ?_ (fun _ _ h => h) fun _ _ h => .inl h
    show Ends (b.parseWithdrawal tx supplied) past _ _
    unfold parseWithdrawal
    cases b.withdrawalHash? tx with
    | none => exact ends_pure.2 trivial
    | some h =>
      exact (ends_receiptFor_failing hnode).bind (fun _ _ _ => ends_pure.2 trivial) fun _ _ h => h
  | membershipChange => exact (hdraft _).mono (fun _ _ h => h) fun _ _ h => .inl h
  | upgradeAuthorization => exact (hdraft _).mono (fun _ _ h => h) fun _ _ h => .inl h

theorem ends_parseByHash_failing {kind : TxKind} {hash : Hash} :
    Ends (b.parseByHash kind hash) past (fun _ _ => True) fun e _ => e.isUpstream = true ∨
      kind = .deposit ∧ ∃ (fault : CallFault) (tx : Transaction) (asked : Exchanges),
        e = fault.toError ∧ b.transaction hash past = .ok (some tx) asked ∧
          b.MinterFault tx none asked fault := by
  refine (ends_transaction_failing hnode).with_eq.bind (fun served asked hserved => ?_)
    fun _ _ h => .inl h.1
  cases served with
  | none => exact ends_pure.2 trivial
  | some tx =>
    refine (ends_parse_failing hnode).mono (fun _ _ h => h) fun e _ he => he.imp_right ?_
    rintro ⟨hkind, fault, he, hfault⟩
    exact ⟨hkind, fault, tx, asked, he, hserved.2, hfault⟩

end Upstream

/-- Output of the minter view that is at fault ends the parsing of a deposit. -/
theorem MinterFault.outcome {fault : CallFault} (h : b.MinterFault tx supplied past fault) :
    (b.parse .deposit tx supplied).outcome past = .error fault.toError := by
  obtain @⟨info, receipt, record, asked, output, hroute, hbound, hreceipt, hrecord, houtput,
    hfault⟩ := h
  have hmade : (some receipt).bind (b.depositRecord? tx (.token info)) = some record := hrecord
  have hminter : b.minterToCheck? (.token info) = some info.contract := if_pos hbound
  have hview : Ends (b.isMinter info.contract false) asked (fun _ _ => False)
      fun e _ => e = fault.toError := by
    refine ends_bind.2 ?_
    simp only [Ends, Node.ask, houtput, hfault]
    rfl
  refine Ends.outcome_eq_error ?_
  show Ends (b.parseDeposit tx supplied) past _ _
  unfold parseDeposit
  rw [hroute]
  refine ends_bind.2 ((ends_of_ok hreceipt).2 ?_)
  rw [hmade, hminter]
  exact hview.bind (fun _ _ h => h.elim) fun _ _ h => h

/-- While the node only fails by not being available, an operation fails otherwise exactly if it
parses a deposit whose minter view gives output that is no truth value. -/
theorem error_beyond_node_iff (hnode : b.node.FailsUpstream) (past : Exchanges) (kind : TxKind)
    (e : BridgeError) :
    (∀ tx supplied, (b.parse kind tx supplied).outcome past = .error e ∧ e.isUpstream = false ↔
      kind = .deposit ∧
        ∃ fault : CallFault, e = fault.toError ∧ b.MinterFault tx supplied past fault) ∧
    (∀ hash, (b.parseByHash kind hash).outcome past = .error e ∧ e.isUpstream = false ↔
      kind = .deposit ∧ ∃ (fault : CallFault) (tx : Transaction) (asked : Exchanges),
        e = fault.toError ∧ b.transaction hash past = .ok (some tx) asked ∧
          b.MinterFault tx none asked fault) := by
  have hnot : e.isUpstream = false → ¬ e.isUpstream = true := fun h => by simp [h]
  constructor
  · intro tx supplied
    constructor
    · rintro ⟨he, hother⟩
      exact ((ends_parse_failing hnode).of_outcome_error he).resolve_left (hnot hother)
    · rintro ⟨rfl, fault, rfl, hfault⟩
      exact ⟨hfault.outcome, rfl⟩
  · intro hash
    constructor
    · rintro ⟨he, hother⟩
      exact ((ends_parseByHash_failing hnode).of_outcome_error he).resolve_left (hnot hother)
    · rintro ⟨rfl, fault, tx, asked, rfl, htransaction, hfault⟩
      exact ⟨(outcome_parseByHash_of_transaction htransaction).trans hfault.outcome, rfl⟩

/-- The deposit of a bound token whose minter view returns no bytes at all. -/
theorem error_beyond_node_bound_token :
    let info : TokenInfo := ⟨Sample.token, 7, 6, "token"⟩
    let tx := Sample.transaction (.fill 1) Sample.user Sample.token 0 []
    let receipt := Sample.receipt tx.hash
      [.ofTransfer Sample.plainSignatures Sample.token Sample.user Sample.bridgeContract 5]
    let chain := { Sample.emptyChain.addTransaction tx receipt with viewOverride := some [] }
    let b := { Sample.plainBridge chain with tokens := (TokenTable.empty.register info).bindAsset 7 }
    let e := CallFault.toError (.undecodable .noData)
    b.node.FailsUpstream ∧ e.isUpstream = false ∧
      (b.parse .deposit tx (some receipt)).outcome [] = .error e ∧
      (b.parseByHash .deposit tx.hash).outcome [] = .error e := by
  intro info tx receipt chain b e
  have hnode : b.node.FailsUpstream := chain.failsUpstream
  have hroute : b.depositRoute? tx = some (.token info) := by decide +kernel
  have hrecord : b.tokenDeposit? tx info receipt = some
      { Record.ofTransaction .deposit tx (.ofToken info) with
        recipient := Sample.bridgeContract, value := 5 } := by decide +kernel
  obtain ⟨hparse, hbyHash⟩ := error_beyond_node_iff hnode [] .deposit e
  have hsupplied := (hparse tx (some receipt)).2
    ⟨rfl, _, rfl, .intro hroute rfl rfl hrecord rfl rfl⟩
  have hserved := (hbyHash tx.hash).2
    ⟨rfl, _, tx, [⟨.transaction tx.hash, true⟩], rfl, rfl, .intro hroute rfl rfl hrecord rfl rfl⟩
  exact ⟨hnode, rfl, hsupplied.1, hserved.1⟩

end Bridge
end EvmBridge
