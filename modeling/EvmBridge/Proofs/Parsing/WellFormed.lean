import EvmBridge.Proofs.Parsing.PlainDeposit
import EvmBridge.Proofs.Parsing.TokenCrossOut

/-! # Well-formed bridge records

`Record.WellFormed r b kind tx`: the fields of a record of a kind agree with the transaction that it
was made of, with each other and with the bridge's configuration and tokens. Each route of a deposit,
withdrawals and both authorisations make such records only (`Bridge.wellFormed_of_parsed`).
-/

namespace EvmBridge
set_option autoImplicit false
open EvmBridge.Action

/-- Whether transactions of a kind move an asset; the others authorise something. -/
def TxKind.movesAsset : TxKind → Bool
  | .deposit | .withdrawal => true
  | .membershipChange | .upgradeAuthorization => false

namespace Record

/-- What a deposit's record says besides what all records say: the asset went to the contract, no
platform transaction was carried out, and there is a counterpart exactly after a cross-out call. -/
structure OfDeposit (r : Record) (b : Bridge) (tx : Transaction) : Prop where
  recipient : r.recipient = b.config.bridgeContract
  platformTxHash : r.platformTxHash = none
  signers : r.signers = []
  counterpart : r.counterpart.isSome = true ↔
    b.config.signatures.methodOf? tx.input = some .crossOut
  activated : r.counterpart.isSome = true → b.config.crossOutActivationHeight ≤ r.blockHeight

/-- What a record says of an action that was authorised on the platform: the sender called the
contract for a platform transaction, and nobody else has signed. -/
structure OfAction (r : Record) (b : Bridge) (tx : Transaction) : Prop where
  target : tx.recipient = some b.config.bridgeContract
  sender : r.sender = tx.sender
  platformTxHash : r.platformTxHash.isSome = true
  counterpart : r.counterpart = none
  signers : r.signers = [] ∨ r.signers = [tx.sender]

/-- The fields of a record that was made of a transaction as one of a kind. -/
structure WellFormed (r : Record) (b : Bridge) (kind : TxKind) (tx : Transaction) : Prop where
  txHash : r.txHash = tx.hash
  blockHeight : r.blockHeight = tx.blockHeight.getD 0
  value : r.value ≠ 0 ↔ kind.movesAsset = true
  asset : r.asset = .native b.config.nativeAssetId b.config.nativeDecimals ∨
    kind.movesAsset = true ∧ ∃ info, b.tokens.lookup info.contract = some info ∧
      r.asset = .token info.contract info.assetId info.decimals
  deposit : kind = .deposit → r.OfDeposit b tx
  action : kind ≠ .deposit → r.OfAction b tx
  members : kind ≠ .membershipChange → r.addedMembers = [] ∧ r.removedMembers = []
  change : kind = .membershipChange → ∃ args, Call.managerChange tx.input = .ok args ∧
    r.addedMembers = args.added ∧ r.removedMembers = args.removed
  kind : r.kind = kind

end Record

namespace Bridge
variable {b : Bridge} {tx : Transaction} {receipt : Receipt} {r : Record}

/-! ## Deposits -/

/-- Whatever else is put into its fields, a deposit's record is well formed if its value, asset,
recipient and counterpart are right. -/
theorem wellFormed_deposit {asset : Asset} {sender recipient : Address} {value : U256}
    {counterpart : Option String} (hvalue : value ≠ 0)
    (hasset : asset = .native b.config.nativeAssetId b.config.nativeDecimals ∨
      ∃ info, b.tokens.lookup info.contract = some info ∧
        asset = .token info.contract info.assetId info.decimals)
    (hrecipient : recipient = b.config.bridgeContract)
    (hcounterpart : counterpart.isSome = true ↔
      b.config.signatures.methodOf? tx.input = some .crossOut)
    (hactivated : counterpart.isSome = true →
      b.config.crossOutActivationHeight ≤ tx.blockHeight.getD 0) :
    { Record.ofTransaction .deposit tx asset with
      sender := sender, recipient := recipient, value := value,
      counterpart := counterpart : Record }.WellFormed b .deposit tx where
  txHash := rfl
  blockHeight := rfl
  kind := rfl
  value := iff_of_true hvalue rfl
  asset := hasset.imp_right fun h => ⟨rfl, h⟩
  deposit _ := ⟨hrecipient, rfl, rfl, hcounterpart, hactivated⟩
  action h := absurd rfl h
  members _ := ⟨rfl, rfl⟩
  change h := by cases h

theorem recipient_of_targets (h : b.targets tx = true) :
    tx.recipient.getD .zero = b.config.bridgeContract := by
  rw [targets_iff.1 h, Option.getD_some]

theorem wellFormed_nativeDeposit (hmethod : b.config.signatures.methodOf? tx.input ≠ some .crossOut)
    (hsends : b.sendsNative tx = true) (h : b.nativeDeposit? tx receipt = some r) :
    r.WellFormed b .deposit tx := by
  obtain ⟨hrecipient, hvalue, -⟩ := sendsNative_iff.1 hsends
  obtain ⟨-, -, rfl⟩ := nativeDeposit?_eq_some_iff.1 h
  exact wellFormed_deposit hvalue (.inl rfl) (recipient_of_targets (targets_iff.2 hrecipient))
    (iff_of_false Bool.false_ne_true hmethod) fun h => absurd h Bool.false_ne_true

theorem wellFormed_tokenDeposit {info : TokenInfo}
    (hmethod : b.config.signatures.methodOf? tx.input ≠ some .crossOut)
    (hinfo : b.tokens.lookup info.contract = some info)
    (h : b.tokenDeposit? tx info receipt = some r) : r.WellFormed b .deposit tx := by
  obtain ⟨-, sender, amount, -, hamount, rfl⟩ := tokenDeposit?_eq_some_iff.1 h
  exact wellFormed_deposit hamount (.inr ⟨info, hinfo, rfl⟩) rfl
    (iff_of_false Bool.false_ne_true hmethod) fun h => absurd h Bool.false_ne_true

section CrossOut
variable (hmethod : b.config.signatures.methodOf? tx.input = some .crossOut)
  (htargets : b.targets tx = true)
  (hheight : b.config.crossOutActivationHeight ≤ tx.blockHeight.getD 0)
include hmethod htargets hheight

theorem wellFormed_nativeCrossOut (h : b.nativeCrossOut? tx receipt = some r) :
    r.WellFormed b .deposit tx := by
  obtain ⟨hvalue, recipient, -, rfl⟩ := nativeCrossOut?_eq_some_iff.1 h
  exact wellFormed_deposit hvalue (.inl rfl) (recipient_of_targets htargets)
    (iff_of_true rfl hmethod) fun _ => hheight

theorem wellFormed_tokenCrossOut {args : Call.CrossOut}
    (h : b.tokenCrossOut? tx args receipt = some r) : r.WellFormed b .deposit tx := by
  obtain ⟨info, hinfo, hamount, -, rfl⟩ := tokenCrossOut?_eq_some_iff.1 h
  have hlookup : b.tokens.lookup info.contract = some info :=
    TokenTable.contract_of_lookup hinfo ▸ hinfo
  exact wellFormed_deposit hamount (.inr ⟨info, hlookup, rfl⟩) (recipient_of_targets htargets)
    (iff_of_true rfl hmethod) fun _ => hheight

end CrossOut

theorem wellFormed_depositRecord {route : DepositRoute} (hroute : b.Routes tx route)
    (h : b.depositRecord? tx route receipt = some r) : r.WellFormed b .deposit tx := by
  cases hroute with
  | native hmethod hsends => exact wellFormed_nativeDeposit hmethod hsends h
  | token hmethod hinfo => exact wellFormed_tokenDeposit hmethod hinfo h
  | crossOut hmethod htargets hheight hargs =>
    simp only [depositRecord?, crossOutRecord?] at h
    split at h
    · split at h
      · exact wellFormed_nativeCrossOut hmethod htargets hheight h
      · exact wellFormed_tokenCrossOut hmethod htargets hheight h
    · cases h

/-! ## Withdrawals and authorisations -/

/-- A completion changes nothing but the platform transaction and the signers. -/
theorem wellFormed_withCompletion {kind : TxKind} {completing : Option Receipt}
    (h : r.WellFormed b kind tx) (hkind : kind ≠ .deposit) (hsigners : r.signers = []) :
    (b.withCompletion completing r).WellFormed b kind tx := by
  rw [withCompletion_of_unsigned hsigners]
  cases completing.bind b.completionHash? with
  | none => exact h
  | some _ =>
    have haction := h.action hkind
    exact ⟨h.txHash, h.blockHeight, h.value, h.asset, fun hd => absurd hd hkind,
      fun _ => ⟨haction.target, haction.sender, rfl, haction.counterpart,
        .inr (congrArg (fun s => [s]) haction.sender)⟩, h.members, h.change, h.kind⟩

/-- What a log pays out is not zero, and of the native coin or of a registered token. -/
theorem Pays.sound {log : Log} {p : Payout} (h : b.Pays log p) : p.amount ≠ 0 ∧
    (p.asset = .native b.config.nativeAssetId b.config.nativeDecimals ∨
      ∃ info, b.tokens.lookup info.contract = some info ∧
        p.asset = .token info.contract info.assetId info.decimals) := by
  cases h with
  | @token _ _ _ info _ hinfo hamount =>
    exact ⟨hamount, .inr ⟨info, TokenTable.contract_of_lookup hinfo ▸ hinfo, rfl⟩⟩
  | native _ hamount => exact ⟨hamount, .inl rfl⟩

theorem wellFormed_withdrawalRecord {h : String} (htargets : b.targets tx = true)
    (hmade : b.withdrawalRecord? tx h receipt = some r) : r.WellFormed b .withdrawal tx := by
  obtain ⟨-, p, hfirst, rfl⟩ := withdrawalRecord?_eq_some_iff.1 hmade
  obtain ⟨log, -, hpays⟩ := hfirst.exists_mem
  obtain ⟨hamount, hasset⟩ := hpays.sound
  refine wellFormed_withCompletion ?_ nofun rfl
  exact ⟨rfl, rfl, iff_of_true hamount rfl, hasset.imp_right fun h => ⟨rfl, h⟩, nofun,
    fun _ => ⟨targets_iff.1 htargets, rfl, rfl, rfl, .inl rfl⟩, fun _ => ⟨rfl, rfl⟩, nofun, rfl⟩

theorem wellFormed_membershipDraft (h : b.membershipDraft? tx = some r) :
    r.WellFormed b .membershipChange tx ∧ r.signers = [] := by
  obtain ⟨htargets, _, args, -, hargs, rfl⟩ := membershipDraft?_eq_some_iff.1 h
  exact ⟨⟨rfl, rfl, iff_of_false (not_not_intro rfl) nofun, .inl rfl, nofun,
    fun _ => ⟨targets_iff.1 htargets, rfl, rfl, rfl, .inl rfl⟩, fun hk => absurd rfl hk,
    fun _ => ⟨args, hargs, rfl, rfl⟩, rfl⟩, rfl⟩

theorem wellFormed_upgradeDraft (h : b.upgradeDraft? tx = some r) :
    r.WellFormed b .upgradeAuthorization tx ∧ r.signers = [] := by
  obtain ⟨htargets, _, -, rfl⟩ := upgradeDraft?_eq_some_iff.1 h
  exact ⟨⟨rfl, rfl, iff_of_false (not_not_intro rfl) nofun, .inl rfl, nofun,
    fun _ => ⟨targets_iff.1 htargets, rfl, rfl, rfl, .inl rfl⟩, fun _ => ⟨rfl, rfl⟩, nofun, rfl⟩, rfl⟩

/-! ## All ways of parsing -/

theorem ends_parse (kind : TxKind) (tx : Transaction) (supplied : Option Receipt)
    (past : Exchanges) :
    Ends (b.parse kind tx supplied) past (fun found _ => ∀ r ∈ found, r.WellFormed b kind tx)
      fun _ _ => True := by
  cases kind with
  | deposit =>
    refine ends_parseDeposit.mono (fun found _ h r hr => ?_) fun _ _ _ => trivial
    obtain ⟨route, receipt, hroute, -, hmade⟩ := h r hr
    exact wellFormed_depositRecord hroute hmade
  | withdrawal =>
    refine ends_parseWithdrawal.mono (fun found _ h r hr => ?_) fun _ _ _ => trivial
    obtain ⟨platformTxHash, receipt, htargets, -, -, hmade⟩ := h r hr
    exact wellFormed_withdrawalRecord htargets hmade
  | membershipChange =>
    refine ends_parseDraft.mono (fun found _ h r hr => ?_) fun _ _ _ => trivial
    obtain ⟨d, hd, receipt, rfl⟩ := h r hr
    obtain ⟨hwell, hsigners⟩ := wellFormed_membershipDraft hd
    exact wellFormed_withCompletion hwell nofun hsigners
  | upgradeAuthorization =>
    refine ends_parseDraft.mono (fun found _ h r hr => ?_) fun _ _ _ => trivial
    obtain ⟨d, hd, receipt, rfl⟩ := h r hr
    obtain ⟨hwell, hsigners⟩ := wellFormed_upgradeDraft hd
    exact wellFormed_withCompletion hwell nofun hsigners

theorem ends_parseByHash (kind : TxKind) (hash : Hash) (past : Exchanges) :
    Ends (b.parseByHash kind hash) past
      (fun found _ => ∀ r ∈ found, ∃ tx,
        b.node.respond past (.transaction hash) b.config.rpcTimeout = .answer (some tx) ∧
          r.WellFormed b kind tx)
      fun _ _ => True := by
  refine ends_transaction.bind (fun served past' hserved => ?_) fun _ _ _ => trivial
  cases served with
  | none => exact ends_pure.2 (by simp)
  | some tx =>
    refine (ends_parse kind tx none past').mono (fun found _ h r hr => ?_) fun _ _ _ => trivial
    exact ⟨tx, (hserved tx rfl).2, h r hr⟩

theorem ends_analyze (tx : Transaction) (past : Exchanges) :
    Ends (b.analyze tx) past
      (fun found _ => ∀ r ∈ found, ∃ kind, b.kindOf? tx = some kind ∧ r.WellFormed b kind tx)
      fun _ _ => True := by
  unfold analyze
  cases b.kindOf? tx with
  | none => exact ends_pure.2 (by simp)
  | some kind =>
    exact (ends_parse kind tx none past).mono (fun found _ h r hr => ⟨kind, rfl, h r hr⟩)
      fun _ _ _ => trivial

/-- Whichever way a transaction is parsed, after whatever exchanges with the node: the record is a
well-formed one of the kind asked for, or of the kind that the transaction is taken as. -/
theorem wellFormed_of_parsed (b : Bridge) (past : Exchanges) (r : Record) :
    (∀ kind tx supplied, (b.parse kind tx supplied).outcome past = .ok (some r) →
      r.WellFormed b kind tx) ∧
    (∀ kind hash, (b.parseByHash kind hash).outcome past = .ok (some r) →
      ∃ tx, b.node.respond past (.transaction hash) b.config.rpcTimeout = .answer (some tx) ∧
        r.WellFormed b kind tx) ∧
    (∀ tx, (b.analyze tx).outcome past = .ok (some r) →
      ∃ kind, b.kindOf? tx = some kind ∧ r.WellFormed b kind tx) :=
  ⟨fun kind tx supplied h => (ends_parse kind tx supplied past).of_outcome h r rfl,
    fun kind hash h => (ends_parseByHash kind hash past).of_outcome h r rfl,
    fun tx h => (ends_analyze tx past).of_outcome h r rfl⟩

theorem outcome_parseByHash {kind : TxKind} {hash : Hash} {past : Exchanges}
    (hserved : b.node.respond past (.transaction hash) b.config.rpcTimeout = .answer (some tx))
    (hcalls : tx.recipient.isSome = true) :
    (b.parseByHash kind hash).outcome past
      = (b.parse kind tx none).outcome (⟨.transaction hash, true⟩ :: past) := by
  refine outcome_parseByHash_of_transaction ?_
  simp only [transaction, bind, EStateM.bind, Node.ask, hserved, pure, EStateM.pure,
    Option.filter_some, hcalls, if_true]

/-- A native deposit that the node knows, parsed in each way. -/
theorem wellFormed_of_parsed_deposit :
    let tx := Sample.transaction (.fill 1) Sample.user Sample.bridgeContract 5 []
    let receipt := Sample.receipt tx.hash
      [.ofDepositFunds Sample.plainSignatures Sample.bridgeContract Sample.user 5]
    let b := Sample.plainBridge (Sample.emptyChain.addTransaction tx receipt)
    let past := [⟨.transaction tx.hash, true⟩]
    let r : Record := ⟨.fill 1, 100, .deposit, Sample.user, Sample.bridgeContract, 5, .native 1 18,
      none, [], none, [], []⟩
    ((b.parse .deposit tx none).outcome past = .ok (some r) ∧ r.WellFormed b .deposit tx) ∧
      ((b.parseByHash .deposit tx.hash).outcome [] = .ok (some r) ∧
        ∃ tx', b.node.respond [] (.transaction tx.hash) b.config.rpcTimeout = .answer (some tx') ∧
          r.WellFormed b .deposit tx') ∧
      (b.analyze tx).outcome past = .ok (some r) ∧
        ∃ kind, b.kindOf? tx = some kind ∧ r.WellFormed b kind tx := by
  intro tx receipt b past r
  have hparse : (b.parse .deposit tx none).outcome past = .ok (some r) :=
    ok_of_toOption (by decide +kernel)
  have hbyHash : (b.parseByHash .deposit tx.hash).outcome [] = .ok (some r) :=
    (outcome_parseByHash rfl rfl).trans hparse
  have hanalyze : (b.analyze tx).outcome past = .ok (some r) := hparse
  obtain ⟨hw, -, hwAnalyze⟩ := wellFormed_of_parsed b past r
  obtain ⟨-, hwByHash, -⟩ := wellFormed_of_parsed b [] r
  exact ⟨⟨hparse, hw _ _ _ hparse⟩, ⟨hbyHash, hwByHash _ _ hbyHash⟩, hanalyze,
    hwAnalyze _ hanalyze⟩

end Bridge
end EvmBridge
