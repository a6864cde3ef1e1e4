import EvmBridge.Call

/-! # Events

* `Event`: what a log says, as far as the bridge understands it.
* `Signatures.decodeEvent`: the event of a log, found by the log's first topic.
* `EventFault`: why a log whose topic is known does not decode.
* `Log.ofTransfer` and its companions: the log of an event.
-/

namespace EvmBridge
set_option autoImplicit false

/-- What a log says. -/
inductive Event where
  /-- A token moved; to the zero address when it is burnt. -/
  | transfer (contract sender recipient : Address) (amount : U256)
  /-- The native coin was deposited. -/
  | depositFunds (sender : Address) (amount : U256)
  /-- An asset was deposited for a platform address; the zero token is the native coin. -/
  | crossOutFunds (sender : Address) (recipient : String) (amount : U256) (token : Address)
  /-- The native coin was paid out. -/
  | transferFunds (recipient : Address) (amount : U256)
  /-- An authorised action was completed. -/
  | completed (kind : TxKind) (platformTxHash : String)
  /-- Nothing that the bridge understands. -/
  | unrecognized
  deriving DecidableEq

/-- Why a log whose topic is known does not decode. -/
inductive EventFault where
  /-- A transfer does not index its two parties. -/
  | transferTopics (count : Nat)
  /-- A transfer has no amount. -/
  | transferAmount
  /-- A payout does not have two words. -/
  | transferFundsShort
  /-- The log's data does not hold the event's fields. -/
  | undecodable (fault : CallFault)
  deriving DecidableEq, Repr

namespace EventFault

/-- The wording of a fault. -/
def message : EventFault → String
  | transferTopics count => "Transfer log with " ++ toString count ++ " topics"
  | transferAmount => "Transfer log without amount"
  | transferFundsShort => "TransferFunds data too short"
  | undecodable fault => fault.message

/-- The fault as an error of the bridge. -/
def toError (f : EventFault) : BridgeError := .malformedData f.message

end EventFault

/-! ## Reading -/

/-- The transfer of a token. The amount is the fourth topic if there is one, else the first word of
the data. -/
def Log.transfer (log : Log) : Except EventFault Event :=
  match log.topics with
  | _ :: sender :: recipient :: more =>
    match more with
    | amount :: _ =>
      .ok (.transfer log.address (.low sender.bytes) (.low recipient.bytes)
        (U256.ofBytes amount.bytes))
    | [] =>
      if log.data.length < 32 then .error .transferAmount
      else .ok (.transfer log.address (.low sender.bytes) (.low recipient.bytes)
        (U256.ofBytes (log.data.take 32)))
  | topics => .error (.transferTopics topics.length)

/-- The payout of the native coin: the recipient in the first word, the amount in the second. -/
def Log.transferFunds (log : Log) : Except EventFault Event :=
  if log.data.length < 64 then .error .transferFundsShort
  else .ok (.transferFunds (.low (log.data.take 32)) (U256.ofBytes ((log.data.drop 32).take 32)))

/-- The fields of a deposit. -/
def Log.depositFunds (log : Log) : Except CallFault Event := do
  let vs ← Call.values [.address, .uint 256] log.data
  return .depositFunds (← Call.addressField vs 0) (← Call.uintField vs 1)

/-- The fields of a cross-out. -/
def Log.crossOutFunds (log : Log) : Except CallFault Event := do
  let vs ← Call.values [.address, .string, .uint 256, .address] log.data
  return .crossOutFunds (← Call.addressField vs 0) (← Call.stringField vs 1)
    (← Call.uintField vs 2) (← Call.addressField vs 3)

/-- The field of a completion. -/
def Log.completed (kind : TxKind) (log : Log) : Except CallFault Event := do
  let vs ← Call.values [.string] log.data
  return .completed kind (← Call.stringField vs 0)

/-- The kind of action whose completion a topic announces. -/
def Signatures.completionKind? (s : Signatures) (topic : Hash) : Option TxKind :=
  if topic = s.withdrawCompleted then some .withdrawal
  else if topic = s.managerChangeCompleted then some .membershipChange
  else if topic = s.upgradeCompleted then some .upgradeAuthorization
  else none

/-- The event of a log. A log without topics or with an unknown first topic says nothing; one with a
known first topic has to decode. -/
def Signatures.decodeEvent (s : Signatures) (log : Log) : Except EventFault Event :=
  match log.topics.head? with
  | none => .ok .unrecognized
  | some topic =>
    if topic = s.erc20Transfer then log.transfer
    else if topic = s.transferFunds then log.transferFunds
    else if topic = s.depositFunds then log.depositFunds.mapError .undecodable
    else if topic = s.crossOutFunds then log.crossOutFunds.mapError .undecodable
    else
      match s.completionKind? topic with
      | some kind => (log.completed kind).mapError .undecodable
      | none => .ok .unrecognized

/-! ## Writing -/

/-- The topic of a completion. A deposit has no event of its own and shares the withdrawal's. -/
def Signatures.completionTopic (s : Signatures) : TxKind → Hash
  | .membershipChange => s.managerChangeCompleted
  | .upgradeAuthorization => s.upgradeCompleted
  | .withdrawal | .deposit => s.withdrawCompleted

namespace Log

/-- The 32 bytes of an address as a topic. -/
def addressTopic (a : Address) : Hash := .low a.word

/-- The log of a token transfer. -/
def ofTransfer (s : Signatures) (contract sender recipient : Address) (amount : U256) : Log where
  address := contract
  topics := [s.erc20Transfer, addressTopic sender, addressTopic recipient]
  data := amount.toBytes

/-- The log of a native payout by a contract. -/
def ofTransferFunds (s : Signatures) (contract recipient : Address) (amount : U256) : Log where
  address := contract
  topics := [s.transferFunds]
  data := Abi.encode [.address recipient, .uint amount]

/-- The log of a native deposit to a contract. -/
def ofDepositFunds (s : Signatures) (contract sender : Address) (amount : U256) : Log where
  address := contract
  topics := [s.depositFunds]
  data := Abi.encode [.address sender, .uint amount]

/-- The log of a cross-out deposit to a contract. -/
def ofCrossOut (s : Signatures) (contract sender : Address) (recipient : String) (amount : U256)
    (token : Address) : Log where
  address := contract
  topics := [s.crossOutFunds]
  data := Abi.encode [.address sender, .string recipient, .uint amount, .address token]

/-- The log of a completion by a contract. -/
def ofCompleted (s : Signatures) (contract : Address) (kind : TxKind) (platformTxHash : String) :
    Log where
  address := contract
  topics := [s.completionTopic kind]
  data := Abi.encode [.string platformTxHash]

end Log
end EvmBridge
