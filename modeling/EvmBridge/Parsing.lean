import EvmBridge.Authorization
import EvmBridge.Deposit
import EvmBridge.Withdrawal

/-! # Bridge records of transactions

* `Bridge.parse`: the record of a transaction, taken as one of a given kind.
* `Bridge.parseByHash`: the same for a transaction that the node has to be asked for.
* `Bridge.analyze`: the record of a transaction of any kind.
-/

namespace EvmBridge.Bridge
set_option autoImplicit false

/-- The record of a transaction taken as one of a kind, with a receipt if one is at hand. -/
def parse (b : Bridge) : TxKind → Transaction → Option Receipt → Action Exchanges (Option Record)
  | .deposit => b.parseDeposit
  | .withdrawal => b.parseWithdrawal
  | .membershipChange => b.parseMembershipChange
  | .upgradeAuthorization => b.parseUpgrade

/-- The record of a transaction of a kind by its hash. -/
def parseByHash (b : Bridge) (kind : TxKind) (hash : Hash) : Action Exchanges (Option Record) := do
  match ← b.transaction hash with
  | some tx => b.parse kind tx none
  | none => return none

/-- Whether a transaction without a bridge selector may still be a deposit: the native coin sent to
the contract, or a call of a registered token. -/
def mayBePlainDeposit (b : Bridge) (tx : Transaction) : Bool :=
  b.sendsNative tx || (tx.recipient.bind b.tokens.lookup).isSome

/-- The kind to take a transaction as. -/
def kindOf? (b : Bridge) (tx : Transaction) : Option TxKind :=
  match (b.classify tx.input).kind? with
  | some kind => some kind
  | none => if b.mayBePlainDeposit tx then some .deposit else none

/-- The record of a transaction, whatever its kind. -/
def analyze (b : Bridge) (tx : Transaction) : Action Exchanges (Option Record) :=
  match b.kindOf? tx with
  | some kind => b.parse kind tx none
  | none => pure none

end EvmBridge.Bridge
