import EvmBridge.Event
import EvmBridge.Proofs.Abi.Calldata

/-! # Events that are read back

A log is taken for the event that its first topic names (`Signatures.topics`), and the log that a
contract emits for an event gives back that event with all its fields, as long as the topics differ
(`Signatures.decodeEvent_emitted`). Amounts come from two places: a transfer has its amount in a
fourth topic or, if there is none, in the data.
-/

namespace EvmBridge
set_option autoImplicit false

/-! ## Events and their logs -/

/-- The topics by which logs are recognised. -/
def Signatures.topics (s : Signatures) : List Hash :=
  [s.erc20Transfer, s.transferFunds, s.depositFunds, s.crossOutFunds, s.withdrawCompleted,
    s.managerChangeCompleted, s.upgradeCompleted]

/-- The kind that a completion announces. A deposit has the topic of a withdrawal. -/
def TxKind.announced : TxKind → TxKind
  | .deposit | .withdrawal => .withdrawal
  | .membershipChange => .membershipChange
  | .upgradeAuthorization => .upgradeAuthorization

/-- Whether a contract emits a log for an event. -/
inductive Signatures.Emits (s : Signatures) (contract : Address) : Event → Log → Prop
  | transfer (sender recipient : Address) (amount : U256) :
    Emits s contract (.transfer contract sender recipient amount)
      (.ofTransfer s contract sender recipient amount)
  | transferFunds (recipient : Address) (amount : U256) :
    Emits s contract (.transferFunds recipient amount) (.ofTransferFunds s contract recipient amount)
  | depositFunds (sender : Address) (amount : U256) :
    Emits s contract (.depositFunds sender amount) (.ofDepositFunds s contract sender amount)
  | crossOutFunds (sender : Address) (recipient : String) (amount : U256) (token : Address) :
    Emits s contract (.crossOutFunds sender recipient amount token)
      (.ofCrossOut s contract sender recipient amount token)
  | completed (kind : TxKind) (platformTxHash : String) :
    Emits s contract (.completed kind.announced platformTxHash)
      (.ofCompleted s contract kind platformTxHash)

/-! ## Reading by topic -/

namespace Log

theorem bytes_addressTopic (a : Address) : (addressTopic a).bytes = a.word := by
  have hl : a.word.length = 32 := by simp [FixedBytes.word, a.length_bytes]
  exact congrArg FixedBytes.bytes (FixedBytes.low_bytes ⟨a.word, hl⟩)

theorem low_addressTopic (a : Address) : FixedBytes.low (addressTopic a).bytes = a := by
  rw [bytes_addressTopic, FixedBytes.low_word (by decide)]

theorem transfer_of_amount_topic (log : Log) {topic sender recipient amount : Hash}
    {more : List Hash} (h : log.topics = topic :: sender :: recipient :: amount :: more) :
    log.transfer = .ok (.transfer log.address (.low sender.bytes) (.low recipient.bytes)
      (.ofBytes amount.bytes)) := by
  rw [transfer, h]

theorem transfer_ofTransfer (s : Signatures) (contract sender recipient : Address)
    (amount : U256) : (ofTransfer s contract sender recipient amount).transfer
      = .ok (.transfer contract sender recipient amount) := by
  have hl : amount.toBytes.length = 32 := U256.length_toBytes amount
  have hdata : ¬ (ofTransfer s contract sender recipient amount).data.length < 32 :=
    Nat.not_lt.2 hl.ge
  simp only [transfer, ofTransfer, low_addressTopic] at hdata ⊢
  rw [if_neg hdata, List.take_of_length_le hl.le, U256.ofBytes_toBytes]

theorem transferFunds_ofTransferFunds (s : Signatures) (contract recipient : Address)
    (amount : U256) : (ofTransferFunds s contract recipient amount).transferFunds
      = .ok (.transferFunds recipient amount) := by
  have hword : recipient.word.length = 32 := by simp [FixedBytes.word, recipient.length_bytes]
  have hl : amount.toBytes.length = 32 := U256.length_toBytes amount
  have hdata : (ofTransferFunds s contract recipient amount).data
      = recipient.word ++ amount.toBytes := by
    show recipient.word ++ (amount.toBytes ++ []) ++ [] = _
    rw [List.append_nil, List.append_nil]
  rw [transferFunds, hdata, if_neg (by rw [List.length_append]; omega), List.take_left' hword,
    List.drop_left' hword, List.take_of_length_le hl.le, FixedBytes.low_word (by decide),
    U256.ofBytes_toBytes]

theorem depositFunds_ofDepositFunds (s : Signatures) (contract sender : Address) (amount : U256)
    (hfits : (ofDepositFunds s contract sender amount).data.length < 2 ^ 32) :
    (ofDepositFunds s contract sender amount).depositFunds = .ok (.depositFunds sender amount) := by
  have hvalues := Call.values_encode
    (.cons (.address sender) (.cons (.uint amount 256) .nil)) hfits
  simp only [depositFunds, ofDepositFunds, hvalues]
  rfl

theorem crossOutFunds_ofCrossOut (s : Signatures) (contract sender : Address) (recipient : String)
    (amount : U256) (token : Address)
    (hfits : (ofCrossOut s contract sender recipient amount token).data.length < 2 ^ 32) :
    (ofCrossOut s contract sender recipient amount token).crossOutFunds
      = .ok (.crossOutFunds sender recipient amount token) := by
  have hvalues := Call.values_encode (.cons (.address sender) (.cons (.string recipient)
    (.cons (.uint amount 256) (.cons (.address token) .nil)))) hfits
  simp only [crossOutFunds, ofCrossOut, hvalues]
  rfl

theorem completed_ofCompleted (s : Signatures) (contract : Address) (kind announced : TxKind)
    (platformTxHash : String)
    (hfits : (ofCompleted s contract kind platformTxHash).data.length < 2 ^ 32) :
    (ofCompleted s contract kind platformTxHash).completed announced
      = .ok (.completed announced platformTxHash) := by
  have hvalues := Call.values_encode (.cons (.string platformTxHash) .nil) hfits
  simp only [completed, ofCompleted, hvalues]
  rfl

end Log

/-! ## Which event a topic names -/

namespace Signatures
variable {s : Signatures} {log : Log}

theorem decodeEvent_transfer (h : log.topics.head? = some s.erc20Transfer) :
    s.decodeEvent log = log.transfer := by
  rw [decodeEvent, h]
  exact if_pos rfl

theorem decodeEvent_transferFunds (hd : s.topics.Nodup)
    (h : log.topics.head? = some s.transferFunds) : s.decodeEvent log = log.transferFunds := by
  rw [decodeEvent, h]
  grind [topics]

theorem decodeEvent_depositFunds (hd : s.topics.Nodup)
    (h : log.topics.head? = some s.depositFunds) :
    s.decodeEvent log = log.depositFunds.mapError .undecodable := by
  rw [decodeEvent, h]
  grind [topics]

theorem decodeEvent_crossOutFunds (hd : s.topics.Nodup)
    (h : log.topics.head? = some s.crossOutFunds) :
    s.decodeEvent log = log.crossOutFunds.mapError .undecodable := by
  rw [decodeEvent, h]
  grind [topics]

theorem completionKind?_completionTopic (hd : s.topics.Nodup) (kind : TxKind) :
    s.completionKind? (s.completionTopic kind) = some kind.announced := by
  cases kind <;> grind [topics, completionKind?, completionTopic, TxKind.announced]

theorem decodeEvent_completed (hd : s.topics.Nodup) {kind : TxKind}
    (h : log.topics.head? = some (s.completionTopic kind)) :
    s.decodeEvent log = (log.completed kind.announced).mapError .undecodable := by
  have hkind := completionKind?_completionTopic hd kind
  rw [decodeEvent, h]
  cases kind <;> grind [topics, completionTopic]

theorem decodeEvent_of_not_mem (h : ∀ topic, log.topics.head? = some topic → topic ∉ s.topics) :
    s.decodeEvent log = .ok .unrecognized := by
  rw [decodeEvent]
  cases hhead : log.topics.head? with
  | none => rfl
  | some topic =>
    have hnone := h topic hhead
    simp only [topics, List.mem_cons, List.not_mem_nil, or_false, not_or] at hnone
    obtain ⟨h₁, h₂, h₃, h₄, h₅, h₆, h₇⟩ := hnone
    simp only [completionKind?, if_neg h₁, if_neg h₂, if_neg h₃, if_neg h₄, if_neg h₅, if_neg h₆,
      if_neg h₇]

/-! ## Every event -/

theorem Emits.decodeEvent_eq {contract : Address} {event : Event} (h : s.Emits contract event log)
    (hd : s.topics.Nodup) (hfits : log.data.length < 2 ^ 32) : s.decodeEvent log = .ok event := by
  cases h with
  | transfer sender recipient amount =>
    rw [decodeEvent_transfer rfl, Log.transfer_ofTransfer]
  | transferFunds recipient amount =>
    rw [decodeEvent_transferFunds hd rfl, Log.transferFunds_ofTransferFunds]
  | depositFunds sender amount =>
    rw [decodeEvent_depositFunds hd rfl, Log.depositFunds_ofDepositFunds s _ _ _ hfits]
    rfl
  | crossOutFunds sender recipient amount token =>
    rw [decodeEvent_crossOutFunds hd rfl, Log.crossOutFunds_ofCrossOut s _ _ _ _ _ hfits]
    rfl
  | completed kind platformTxHash =>
    rw [decodeEvent_completed hd rfl, Log.completed_ofCompleted s _ _ _ _ hfits]
    rfl

/-- The log of an event gives back that event; a transfer with a fourth topic has its amount there,
whatever its data; a log with none of the topics says nothing, and is never a fault. The codec keeps
places and lengths as numbers of 32 bits, so the data has to be shorter than 2³² bytes. -/
theorem decodeEvent_emitted (hd : s.topics.Nodup) :
    (∀ contract event log, s.Emits contract event log → log.data.length < 2 ^ 32 →
      s.decodeEvent log = .ok event) ∧
    (∀ contract (sender recipient amount : Hash) more data,
      s.decodeEvent ⟨contract, s.erc20Transfer :: sender :: recipient :: amount :: more, data⟩
        = .ok (.transfer contract (.low sender.bytes) (.low recipient.bytes)
          (.ofBytes amount.bytes))) ∧
    ∀ log : Log, (∀ topic, log.topics.head? = some topic → topic ∉ s.topics) →
      s.decodeEvent log = .ok .unrecognized := by
  refine ⟨fun _ _ _ h => h.decodeEvent_eq hd, ?_, fun _ => decodeEvent_of_not_mem⟩
  intro contract sender recipient amount more data
  rw [decodeEvent_transfer rfl]
  exact Log.transfer_of_amount_topic _ rfl

/-- The greatest amount, a text that is not all ASCII, and the completion of a deposit. -/
theorem decodeEvent_emitted_samples :
    let s := Sample.plainSignatures
    let most : U256 := .allOnes 256
    s.topics.Nodup ∧
      s.decodeEvent (.ofCrossOut s Sample.bridgeContract Sample.user "größe" most .zero)
        = .ok (.crossOutFunds Sample.user "größe" most .zero) ∧
      s.decodeEvent (.ofCompleted s Sample.bridgeContract .deposit "p1")
        = .ok (.completed .withdrawal "p1") ∧
      s.decodeEvent ⟨Sample.token, [s.erc20Transfer, .fill 1, .fill 2, .fill 0xFF], [7]⟩
        = .ok (.transfer Sample.token (.fill 1) (.fill 2) most) := by
  intro s most
  have hd : s.topics.Nodup := by decide
  have h := decodeEvent_emitted hd
  refine ⟨hd, h.1 _ _ _ (.crossOutFunds ..) (by decide +kernel),
    h.1 _ _ _ (.completed .deposit "p1") (by decide +kernel), ?_⟩
  exact (h.2.1 _ _ _ _ _ _).trans (by decide +kernel)

end Signatures
end EvmBridge
