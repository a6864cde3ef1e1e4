import EvmBridge.Asset
import EvmBridge.Chain

/-! # Bridge records

* `TxKind`: what a bridge transaction does.
* `Record`: an accepted bridge transaction.
* `Record.Fits`: its texts and lists have lengths that a row can hold.
* `Record.ofTransaction`: the record of a transaction before its kind's own fields are set.
-/

namespace EvmBridge
set_option autoImplicit false

/-- What a bridge transaction does. -/
inductive TxKind where
  /-- Moves assets from the external chain to the platform. -/
  | deposit
  /-- Pays out of the bridge contract. -/
  | withdrawal
  /-- Changes the contract's managers. -/
  | membershipChange
  /-- Authorises a new contract. -/
  | upgradeAuthorization
  deriving DecidableEq, Repr

/-- The name of a kind. -/
def TxKind.name : TxKind → String
  | deposit => "deposit"
  | withdrawal => "withdrawal"
  | membershipChange => "membership-change"
  | upgradeAuthorization => "upgrade-authorization"

/-- An accepted bridge transaction. -/
structure Record where
  txHash : Hash
  blockHeight : UInt64
  kind : TxKind
  sender : Address
  recipient : Address
  /-- The amount moved; zero for membership changes and upgrades. -/
  value : U256
  asset : Asset
  /-- The platform address that a deposit is for. -/
  counterpart : Option String
  /-- The external addresses that signed the action. -/
  signers : List Address
  /-- The platform transaction that the action completes. -/
  platformTxHash : Option String
  addedMembers : List Address
  removedMembers : List Address
  deriving DecidableEq

namespace Record

/-- Whether the lengths of a record's texts and lists can be written in eight bytes, as the length of
anything in memory can. -/
structure Fits (r : Record) : Prop where
  counterpart : ∀ t ∈ r.counterpart, (Utf8.encode t).length < UInt64.size
  platformTxHash : ∀ t ∈ r.platformTxHash, (Utf8.encode t).length < UInt64.size
  signers : r.signers.length < UInt64.size
  addedMembers : r.addedMembers.length < UInt64.size
  removedMembers : r.removedMembers.length < UInt64.size

/-- Whether the signers are known. -/
def hasSigners (r : Record) : Bool := !r.signers.isEmpty

/-- A record of a kind with the fields that come from the transaction itself. A transaction that is
in no block counts as one at height 0, and one that creates a contract as sent to the zero
address. -/
def ofTransaction (kind : TxKind) (tx : Transaction) (asset : Asset) : Record where
  txHash := tx.hash
  blockHeight := tx.blockHeight.getD 0
  kind := kind
  sender := tx.sender
  recipient := tx.recipient.getD .zero
  value := tx.value
  asset := asset
  counterpart := none
  signers := []
  platformTxHash := none
  addedMembers := []
  removedMembers := []

/-- The record with one more signer, unless it has that signer already. -/
def addSigner (r : Record) (signer : Address) : Record :=
  if signer ∈ r.signers then r else { r with signers := r.signers ++ [signer] }

end Record
end EvmBridge
