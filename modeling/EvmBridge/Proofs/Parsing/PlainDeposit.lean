import EvmBridge.Proofs.Abi.Arguments
import EvmBridge.Proofs.Parsing.DecidingLog

/-! # Deposits without a cross-out call

Native coin sent to the contract is a deposit if an event confirms it, a transaction sent to a token
if it brings the contract some of that token. The two searches pass over different logs
(`Log.First`). A native deposit goes on after an event that does not match and is refused at one that
does not decode; the deposit of a token passes over what it cannot read, and the first transfer to
the contract decides.
-/

namespace EvmBridge
set_option autoImplicit false
open EvmBridge.Action

/-- The fields that all records of deposits without a cross-out call have alike. -/
structure Record.OfPlainDeposit (r : Record) (tx : Transaction) : Prop where
  txHash : r.txHash = tx.hash
  blockHeight : r.blockHeight = tx.blockHeight.getD 0
  kind : r.kind = .deposit
  counterpart : r.counterpart = none
  signers : r.signers = []
  platformTxHash : r.platformTxHash = none
  members : r.addedMembers = [] ∧ r.removedMembers = []

theorem Record.eq_ofTransaction_deposit_iff {r : Record} {tx : Transaction} {asset : Asset}
    {sender recipient : Address} {value : U256} :
    r = { Record.ofTransaction .deposit tx asset with
      sender := sender, recipient := recipient, value := value } ↔
      r.OfPlainDeposit tx ∧ r.sender = sender ∧ r.recipient = recipient ∧ r.value = value ∧
        r.asset = asset := by
  constructor
  · rintro rfl
    exact ⟨⟨rfl, rfl, rfl, rfl, rfl, rfl, rfl, rfl⟩, rfl, rfl, rfl, rfl⟩
  · cases r
    rintro ⟨⟨rfl, rfl, rfl, rfl, rfl, rfl, rfl, rfl⟩, rfl, rfl, rfl, rfl⟩
    rfl

namespace Bridge
variable {b : Bridge} {tx : Transaction} {log : Log} {logs : List Log} {receipt : Receipt}
  {r : Record} {supplied : Option Receipt} {past : Exchanges}

/-! ## Native deposits -/

/-- Whether a log is in the way of no deposit: it decodes if it has the topic of one. -/
def DepositReads (b : Bridge) (log : Log) : Prop :=
  log.topics.head? = some b.config.signatures.depositFunds → ∃ e, b.event log = .ok e

/-- Whether a log is a deposit of what a transaction sends, by its sender. -/
def IsDepositOf (b : Bridge) (tx : Transaction) (log : Log) : Prop :=
  log.topics.head? = some b.config.signatures.depositFunds ∧
    b.event log = .ok (.depositFunds tx.sender tx.value)

theorem hasDepositEvent_cons_iff : b.hasDepositEvent tx (log :: logs) = true ↔
    b.IsDepositOf tx log ∨ b.DepositReads log ∧ b.hasDepositEvent tx logs = true := by
  rw [hasDepositEvent]
  by_cases htopic : log.topics.head? = some b.config.signatures.depositFunds
  · rw [if_pos htopic]
    cases hevent : b.event log with
    | error fault => simp [IsDepositOf, DepositReads, htopic, hevent]
    | ok e => cases e <;> simp [IsDepositOf, DepositReads, htopic, hevent]
  · simp [IsDepositOf, DepositReads, htopic]

theorem hasDepositEvent_iff :
    b.hasDepositEvent tx logs = true ↔ Log.First b.DepositReads (b.IsDepositOf tx) logs := by
  induction logs with
  | nil => exact iff_of_false nofun Log.not_first_nil
  | cons log logs ih => rw [hasDepositEvent_cons_iff, Log.first_cons, ih]

theorem nativeDeposit?_eq_some_iff : b.nativeDeposit? tx receipt = some r ↔
    receipt.status = true ∧ Log.First b.DepositReads (b.IsDepositOf tx) receipt.logs ∧
      r = Record.ofTransaction .deposit tx b.nativeAsset := by
  rw [nativeDeposit?, Option.ite_none_right_eq_some, hasDepositEvent_iff, Option.some_inj,
    eq_comm (a := r), and_assoc]

/-! ## Deposits of a token -/

/-- Whether a log is a transfer of a token to the contract. -/
def Brings (b : Bridge) (token sender : Address) (amount : U256) (log : Log) : Prop :=
  b.event log = .ok (.transfer token sender b.config.bridgeContract amount)

theorem incomingTransfer?_eq_some_iff {token sender : Address} {amount : U256} :
    b.incomingTransfer? token log = some (sender, amount) ↔ b.Brings token sender amount log := by
  unfold incomingTransfer? Brings
  rcases b.event log with _ | (_ | _ | _ | _ | _ | _) <;> simp
  grind

theorem incomingTransfer?_eq_none_iff {token : Address} : b.incomingTransfer? token log = none ↔
    ∀ sender amount, ¬ b.Brings token sender amount log := by
  simp [Option.eq_none_iff_forall_ne_some, incomingTransfer?_eq_some_iff]

theorem firstIncoming_iff {token sender : Address} {amount : U256} :
    logs.findSome? (b.incomingTransfer? token) = some (sender, amount) ↔
      Log.First (fun log => ∀ sender amount, ¬ b.Brings token sender amount log)
        (b.Brings token sender amount) logs := by
  simp only [List.findSome?_eq_some_iff, incomingTransfer?_eq_some_iff,
    incomingTransfer?_eq_none_iff, Log.First, and_comm]

theorem tokenDeposit?_eq_some_iff {info : TokenInfo} :
    b.tokenDeposit? tx info receipt = some r ↔ receipt.status = true ∧ ∃ sender amount,
      Log.First (fun log => ∀ sender amount, ¬ b.Brings info.contract sender amount log)
        (b.Brings info.contract sender amount) receipt.logs ∧ amount ≠ 0 ∧
      r = { Record.ofTransaction .deposit tx (.ofToken info) with
        sender := sender, recipient := b.config.bridgeContract, value := amount } := by
  simp only [← firstIncoming_iff, tokenDeposit?, Option.ite_none_right_eq_some]
  refine and_congr_right fun _ => ?_
  cases receipt.logs.findSome? (b.incomingTransfer? info.contract) with
  | none => simp
  | some found =>
    obtain ⟨sender, amount⟩ := found
    simp only [Option.some.injEq, Prod.mk.injEq, Option.ite_none_left_eq_some]
    constructor
    · rintro ⟨hamount, rfl⟩
      exact ⟨sender, amount, ⟨rfl, rfl⟩, hamount, rfl⟩
    · rintro ⟨_, _, ⟨rfl, rfl⟩, hamount, rfl⟩
      exact ⟨hamount, rfl⟩

/-! ## Deposits without a cross-out call -/

/-- Whether the contract, asked after some exchanges, answers that a token is registered as one that
the bridge mints. -/
def AnswersMinter (b : Bridge) (token : Address) (past : Exchanges) : Prop :=
  ∃ output, b.node.respond past (.view b.config.bridgeContract
      (Abi.encodeCall b.config.signatures.isMinter [.address token]) false) b.config.rpcTimeout
        = .answer output ∧
    Abi.decode [.bool] output = .ok [.bool true]

theorem isMinter_eq_ok_true_iff {token : Address} :
    (b.isMinter token false).outcome past = .ok true ↔ b.AnswersMinter token past := by
  simp only [isMinter, outcome_boolView_eq_ok_iff, Call.boolResult_eq_ok_iff, AnswersMinter]

theorem depositRoute?_of_sendsNative
    (hmethod : b.config.signatures.methodOf? tx.input ≠ some .crossOut)
    (hsends : b.sendsNative tx = true) : b.depositRoute? tx = some .native := by
  simp [depositRoute?, (sendsNative_iff.1 hsends).1, hmethod, hsends]

theorem depositRoute?_of_not_sendsNative
    (hmethod : b.config.signatures.methodOf? tx.input ≠ some .crossOut)
    (hsends : b.sendsNative tx = false) :
    b.depositRoute? tx = (tx.recipient.bind b.tokens.lookup).map .token := by
  unfold depositRoute?
  cases tx.recipient with
  | none => rfl
  | some recipient => simp [hmethod, hsends]

theorem parseDeposit_native_iff {asked : Exchanges}
    (hmethod : b.config.signatures.methodOf? tx.input ≠ some .crossOut)
    (hreceipt : b.receiptFor tx supplied past = .ok (some receipt) asked)
    (hstatus : receipt.status = true) (hsends : b.sendsNative tx = true) :
    (b.parseDeposit tx supplied).outcome past = .ok (some r) ↔
      Log.First b.DepositReads (b.IsDepositOf tx) receipt.logs ∧
        r = Record.ofTransaction .deposit tx b.nativeAsset := by
  rw [outcome_parseDeposit_eq_some_iff (depositRoute?_of_sendsNative hmethod hsends) hreceipt,
    depositRecord?, nativeDeposit?_eq_some_iff]
  simp [hstatus, minterToCheck?]

theorem parseDeposit_token_iff {asked : Exchanges}
    (hmethod : b.config.signatures.methodOf? tx.input ≠ some .crossOut)
    (hreceipt : b.receiptFor tx supplied past = .ok (some receipt) asked)
    (hsends : b.sendsNative tx = false) :
    (b.parseDeposit tx supplied).outcome past = .ok (some r) ↔
      ∃ info, tx.recipient = some info.contract ∧ b.tokens.lookup info.contract = some info ∧
        b.tokenDeposit? tx info receipt = some r ∧
        (b.tokens.isBound info.assetId = true → b.AnswersMinter info.contract asked) := by
  have hroute := depositRoute?_of_not_sendsNative hmethod hsends
  have hregistered : ∀ info, tx.recipient.bind b.tokens.lookup = some info ↔
      tx.recipient = some info.contract ∧ b.tokens.lookup info.contract = some info := by
    intro info
    rw [Option.bind_eq_some_iff]
    constructor
    · rintro ⟨recipient, hrecipient, hinfo⟩
      obtain rfl := TokenTable.contract_of_lookup hinfo
      exact ⟨hrecipient, hinfo⟩
    · rintro ⟨hrecipient, hinfo⟩
      exact ⟨info.contract, hrecipient, hinfo⟩
  simp only [← and_assoc, ← hregistered]
  cases hinfo : tx.recipient.bind b.tokens.lookup with
  | none =>
    rw [hinfo] at hroute
    rw [outcome_parseDeposit_of_no_route hroute]
    simp
  | some info =>
    rw [hinfo] at hroute
    rw [outcome_parseDeposit_eq_some_iff hroute hreceipt]
    simp [depositRecord?, minterToCheck?, isMinter_eq_ok_true_iff, and_assoc]

/-- A transaction that is no cross-out call and was carried out is accepted as a deposit exactly by
these rules. Native coin sent without calldata needs a deposit event of its sender and value with no
unreadable deposit event before it, and the record has that sender and value. Anything else needs a
registered token as its target, a first transfer of it to the contract that is not of nothing and, for
a bound token, the contract's answer that it is registered as a minter, asked for after the receipt;
the record has the sender and amount of that transfer. -/
theorem plainDeposit_accepted_iff (b : Bridge) (tx : Transaction) (supplied : Option Receipt)
    (past : Exchanges) (hmethod : b.config.signatures.methodOf? tx.input ≠ some .crossOut)
    (hreceipt : b.HasReceipt tx past supplied receipt) (hstatus : receipt.status = true)
    (r : Record) :
    (b.SendsCoin tx →
      ((b.parseDeposit tx supplied).outcome past = .ok (some r) ↔
        Log.First b.DepositReads (b.IsDepositOf tx) receipt.logs ∧
          r.OfPlainDeposit tx ∧ r.sender = tx.sender ∧ r.recipient = b.config.bridgeContract ∧
          r.value = tx.value ∧
          r.asset = .native b.config.nativeAssetId b.config.nativeDecimals)) ∧
    (¬ b.SendsCoin tx →
      ((b.parseDeposit tx supplied).outcome past = .ok (some r) ↔
        ∃ info sender amount, tx.recipient = some info.contract ∧
          b.tokens.lookup info.contract = some info ∧
          Log.First (fun log => ∀ sender amount, ¬ b.Brings info.contract sender amount log)
            (b.Brings info.contract sender amount) receipt.logs ∧
          amount ≠ 0 ∧
          (b.tokens.isBound info.assetId = true →
            b.AnswersMinter info.contract (receiptAsked tx past supplied)) ∧
          r.OfPlainDeposit tx ∧ r.sender = sender ∧ r.recipient = b.config.bridgeContract ∧
          r.value = amount ∧
          r.asset = .token info.contract info.assetId info.decimals)) := by
  have hasked := receiptFor_of_hasReceipt hreceipt
  constructor
  · intro hsends
    have hrecord : Record.ofTransaction .deposit tx b.nativeAsset
        = { Record.ofTransaction .deposit tx b.nativeAsset with
          sender := tx.sender, recipient := b.config.bridgeContract, value := tx.value } := by
      simp [Record.ofTransaction, hsends.1]
    rw [parseDeposit_native_iff hmethod hasked hstatus (sendsNative_iff.2 hsends), hrecord,
      Record.eq_ofTransaction_deposit_iff]
    rfl
  · intro hsends
    have hnot : b.sendsNative tx = false := by
      rwa [← Bool.not_eq_true, sendsNative_iff]
    rw [parseDeposit_token_iff hmethod hasked hnot]
    simp only [tokenDeposit?_eq_some_iff, hstatus, true_and, Record.eq_ofTransaction_deposit_iff]
    constructor
    · rintro ⟨info, hrecipient, hinfo, ⟨sender, amount, hfirst, hamount, hrecord⟩, hminter⟩
      exact ⟨info, sender, amount, hrecipient, hinfo, hfirst, hamount, hminter, hrecord⟩
    · rintro ⟨info, sender, amount, hrecipient, hinfo, hfirst, hamount, hminter, hrecord⟩
      exact ⟨info, hrecipient, hinfo, ⟨sender, amount, hfirst, hamount, hrecord⟩, hminter⟩

/-- A native deposit behind somebody else's and before an unreadable one; and a bound token, of which
the second transfer to the contract does not count, nor the first while it is not registered as a
minter. -/
theorem plainDeposit_accepted_both :
    let info : TokenInfo := ⟨Sample.token, 7, 6, "token"⟩
    let bridge := fun registered =>
      { Sample.plainBridge { Sample.emptyChain with viewDefault := Abi.encode [.bool registered] } with
        tokens := (TokenTable.empty.register info).bindAsset info.assetId }
    let s := Sample.plainSignatures
    let paid := Sample.transaction (.fill 1) Sample.user Sample.bridgeContract 5 []
    let sent := Sample.transaction (.fill 2) Sample.user Sample.token 0 [1, 2, 3]
    let deposits := Sample.receipt paid.hash
      [.ofDepositFunds s Sample.bridgeContract Sample.relayer 5,
        .ofDepositFunds s Sample.bridgeContract Sample.user 5, ⟨Sample.user, [s.depositFunds], []⟩]
    let transfers := Sample.receipt sent.hash
      [⟨Sample.token, [s.erc20Transfer], []⟩,
        .ofTransfer s Sample.user Sample.user Sample.bridgeContract 4,
        .ofTransfer s Sample.token Sample.relayer Sample.bridgeContract 5,
        .ofTransfer s Sample.token Sample.user Sample.bridgeContract 6]
    let r : Record := ⟨.fill 1, 100, .deposit, Sample.user, Sample.bridgeContract, 5, .native 1 18,
      none, [], none, [], []⟩
    let r' : Record := ⟨.fill 2, 100, .deposit, Sample.relayer, Sample.bridgeContract, 5,
      .token Sample.token 7 6, none, [], none, [], []⟩
    (((bridge true).parseDeposit paid (some deposits)).outcome [] = .ok (some r) ∧
        Log.First (bridge true).DepositReads ((bridge true).IsDepositOf paid) deposits.logs) ∧
      (((bridge true).parseDeposit sent (some transfers)).outcome [] = .ok (some r') ∧
        (bridge true).AnswersMinter Sample.token []) ∧
      ((bridge false).parseDeposit sent (some transfers)).outcome [] = .ok none ∧
        ¬ (bridge false).AnswersMinter Sample.token [] := by
  intro info bridge s paid sent deposits transfers r r'
  have hparse : ((bridge true).parseDeposit paid (some deposits)).outcome [] = .ok (some r) :=
    ok_of_toOption (by decide +kernel)
  have hparse' : ((bridge true).parseDeposit sent (some transfers)).outcome [] = .ok (some r') :=
    ok_of_toOption (by decide +kernel)
  have hrefuse : ((bridge false).parseDeposit sent (some transfers)).outcome [] = .ok none :=
    ok_of_toOption (by decide +kernel)
  have hdenies : ¬ (bridge false).AnswersMinter Sample.token [] := by
    rintro ⟨output, houtput, hdecode⟩
    cases houtput
    cases hdecode
  obtain ⟨hcoin, -⟩ := plainDeposit_accepted_iff (bridge true) paid (some deposits) [] (by decide)
    (.supplied _) rfl r
  obtain ⟨-, htoken⟩ := plainDeposit_accepted_iff (bridge true) sent (some transfers) [] (by decide)
    (.supplied _) rfl r'
  obtain ⟨hfirst, -⟩ := (hcoin (by decide)).1 hparse
  obtain ⟨info', sender, amount, hrecipient, hinfo, -, -, hminter, -⟩ :=
    (htoken (by decide)).1 hparse'
  obtain rfl : info' = info := by
    have hcontract : info'.contract = Sample.token := (Option.some.inj hrecipient).symm
    rw [hcontract] at hinfo
    exact (Option.some.inj hinfo).symm
  exact ⟨⟨hparse, hfirst⟩, ⟨hparse', hminter (by decide)⟩, hrefuse, hdenies⟩

end Bridge
end EvmBridge
