import EvmBridge.Config
import EvmBridge.Event
import EvmBridge.Node

/-! # The bridge to one chain

* `Bridge`: a usable configuration, the tokens that the platform knows, and the chain's node.
* `Bridge.receiptFor`: a transaction's receipt, given or asked for.
* `Bridge.completionHash?`: the platform transaction that a receipt's last log says is completed;
  `Bridge.signers?` and `Bridge.withCompletion` are what follows from it.
* `Bridge.isCompleted`, `Bridge.isMinter`: read-only calls of the contract.
-/

namespace EvmBridge
set_option autoImplicit false

/-- A bridge: a configuration that can work, the known tokens, and the chain's node. -/
structure Bridge where
  config : Config
  tokens : TokenTable
  node : Node
  usable : config.check = .ok ()

namespace Bridge

/-- The bridge of a configuration, if that can work. -/
def ofConfig (config : Config) (tokens : TokenTable) (node : Node) : Except BridgeError Bridge :=
  match h : config.check with
  | .ok () => .ok ⟨config, tokens, node, h⟩
  | .error e => .error e

/-- The chain's native coin. -/
def nativeAsset (b : Bridge) : Asset := .native b.config.nativeAssetId b.config.nativeDecimals

/-- Whether a transaction is sent to the bridge contract. -/
def targets (b : Bridge) (tx : Transaction) : Bool := tx.recipient = some b.config.bridgeContract

/-- What calldata asks for. -/
def classify (b : Bridge) (input : Bytes) : Intent := b.config.signatures.classify input

/-- The event of a log. -/
def event (b : Bridge) (log : Log) : Except EventFault Event :=
  b.config.signatures.decodeEvent log

/-! ## Asking the node -/

/-- The receipt of a transaction: the given one, or else the node's. There is none while the
transaction is pending. -/
def receiptFor (b : Bridge) (tx : Transaction) : Option Receipt → Action Exchanges (Option Receipt)
  | some r => pure (some r)
  | none => b.node.ask b.config.rpcTimeout (.receipt tx.hash)

/-- A transaction by its hash, unless it creates a contract. -/
def transaction (b : Bridge) (hash : Hash) : Action Exchanges (Option Transaction) := do
  let tx ← b.node.ask b.config.rpcTimeout (.transaction hash)
  return tx.filter (·.recipient.isSome)

/-- The truth value that a read-only call of the contract returns. -/
def boolView (b : Bridge) (data : Bytes) (latest : Bool) : Action Exchanges Bool := do
  let output ← b.node.ask b.config.rpcTimeout (.view b.config.bridgeContract data latest)
  Action.ofExcept ((Call.boolResult output).mapError CallFault.toError)

/-- Whether the contract has carried out a platform transaction. -/
def isCompleted (b : Bridge) (platformTxHash : String) (latest : Bool) : Action Exchanges Bool :=
  b.boolView (Abi.encodeCall b.config.signatures.isCompleted [.string platformTxHash]) latest

/-- Whether a token is registered as one that the bridge mints. -/
def isMinter (b : Bridge) (token : Address) (latest : Bool) : Action Exchanges Bool :=
  b.boolView (Abi.encodeCall b.config.signatures.isMinter [.address token]) latest

/-! ## Completion -/

/-- The platform transaction that the receipt's last log says is completed. -/
def completionHash? (b : Bridge) (r : Receipt) : Option String :=
  match r.logs.getLast?.map b.event with
  | some (.ok (.completed _ h)) => some h
  | _ => none

theorem completionHash?_eq_some_iff {b : Bridge} {r : Receipt} {h : String} :
    b.completionHash? r = some h ↔
      ∃ log ∈ r.logs.getLast?, ∃ kind, b.event log = .ok (.completed kind h) := by
  unfold completionHash?
  cases r.logs.getLast? with
  | none => simp
  | some log =>
    simp only [Option.map_some, Option.mem_some_iff, exists_eq_left']
    constructor
    · intro hhash
      split at hhash
      next kind h' hevent =>
        cases hhash
        exact ⟨kind, Option.some.inj hevent⟩
      · cases hhash
    · rintro ⟨kind, hevent⟩
      rw [hevent]

/-- The signers of a completed action: the sender of the transaction that completed it. -/
def signers? (b : Bridge) (r : Receipt) (sender : Address) : Option (List Address) :=
  (b.completionHash? r).map fun _ => [sender]

/-- A record with its platform transaction and its sender as signer, if the receipt says that the
action is completed. -/
def withCompletion (b : Bridge) (receipt : Option Receipt) (r : Record) : Record :=
  match receipt.bind b.completionHash? with
  | some h => { r with platformTxHash := some h }.addSigner r.sender
  | none => r

theorem withCompletion_of_unsigned {b : Bridge} {receipt : Option Receipt} {r : Record}
    (hr : r.signers = []) : b.withCompletion receipt r =
      match receipt.bind b.completionHash? with
      | some h => { r with platformTxHash := some h, signers := [r.sender] }
      | none => r := by
  unfold withCompletion
  cases receipt.bind b.completionHash? with
  | none => rfl
  | some h => simp [Record.addSigner, hr]

end Bridge
end EvmBridge
