import EvmBridge.Docking.Registry
import EvmBridge.Scanner

/-! # Sample values

A bridge contract, two accounts and a token, and the calls, logs, transactions and blocks made of
them, all with the canonical signatures; a quorum and the store that holds it; chains that fork, and
scanners of them.
-/

namespace EvmBridge.Sample
set_option autoImplicit false

/-- The bridge contract. -/
def bridgeContract : Address := .fill 0xB0

/-- A depositor. -/
def user : Address := .fill 0x11

/-- A member of the quorum who relays authorised actions. -/
def relayer : Address := .fill 0x22

/-- A token contract. -/
def token : Address := .fill 0xC0

/-- A configuration for the bridge contract. -/
def config : Config := .forContract 103 bridgeContract

/-- The canonical signatures. -/
def signatures : Signatures := .standard

/-! ## Calldata -/

/-- A withdrawal for a platform transaction. -/
def withdrawCall (platformTxHash : String) : Bytes :=
  Abi.encodeCall signatures.withdraw
    [.string platformTxHash, .address user, .uint 1, .bool false, .address .zero,
      .bytes (List.replicate 65 0x5A)]

/-- A cross-out. -/
def crossOutCall (recipient : String) (amount : U256) (token : Address) : Bytes :=
  Abi.encodeCall signatures.crossOut [.string recipient, .uint amount, .address token]

/-- A manager change for a platform transaction. -/
def managerChangeCall (platformTxHash : String) (added removed : List Address) : Bytes :=
  Abi.encodeCall signatures.managerChange
    [.string platformTxHash, .array (added.map .address), .array (removed.map .address), .uint 1,
      .bytes []]

/-- An upgrade to a contract for a platform transaction. -/
def upgradeCall (platformTxHash : String) (contract : Address) : Bytes :=
  Abi.encodeCall signatures.upgrade [.string platformTxHash, .address contract, .bytes []]

/-! ## Logs -/

/-- A token transfer. -/
def transferLog (contract sender recipient : Address) (amount : U256) : Log :=
  .ofTransfer signatures contract sender recipient amount

/-- A native payout by the bridge contract. -/
def transferFundsLog (recipient : Address) (amount : U256) : Log :=
  .ofTransferFunds signatures bridgeContract recipient amount

/-- A native deposit to the bridge contract. -/
def depositFundsLog (sender : Address) (amount : U256) : Log :=
  .ofDepositFunds signatures bridgeContract sender amount

/-- A cross-out to the bridge contract. -/
def crossOutLog (sender : Address) (recipient : String) (amount : U256) (token : Address) : Log :=
  .ofCrossOut signatures bridgeContract sender recipient amount token

/-- A completion by the bridge contract. -/
def completedLog (kind : TxKind) (platformTxHash : String) : Log :=
  .ofCompleted signatures bridgeContract kind platformTxHash

/-! ## Transactions and blocks -/

/-- A transaction in the block at height 100. -/
def transaction (hash : Hash) (sender recipient : Address) (value : U256) (input : Bytes) :
    Transaction :=
  ⟨hash, some 100, sender, some recipient, value, input⟩

/-- The receipt of a transaction that was carried out. -/
def receipt (hash : Hash) (logs : List Log) : Receipt := ⟨hash, true, logs⟩

/-- A block whose hash begins with its height and the first half of its parent's. -/
def block (height : UInt64) (parentHash : Hash) (transactions : List Transaction) : Block where
  hash := .low (Bytes.ofNat 8 height.toNat ++ parentHash.bytes.take 8 ++ Bytes.zeros 16)
  parentHash := parentHash
  height := height
  timestamp := 1700000000 + height * 3
  transactions := transactions

/-- A header whose hash ends in its height. -/
def header (height : UInt64) : Header :=
  ⟨.low (Bytes.ofNat 8 height.toNat), .zero, height, 1700000000000⟩

/-- A payment of native coin by the depositor, in the block at a height. Its hash begins with height
and amount. -/
def payment (height : UInt64) (recipient : Address) (amount : U256) : Transaction where
  hash := .low (Bytes.ofNat 8 height.toNat ++ Bytes.ofNat 8 amount.toNat)
  blockHeight := some height
  sender := user
  recipient := some recipient
  value := amount
  input := []

/-- The record of such a payment to the bridge contract. -/
def deposited (height : UInt64) (amount : U256) : Record where
  txHash := (payment height bridgeContract amount).hash
  blockHeight := height
  kind := .deposit
  sender := user
  recipient := bridgeContract
  value := amount
  asset := .native 1 18
  counterpart := none
  signers := []
  platformTxHash := none
  addedMembers := []
  removedMembers := []

/-! ## Chains -/

/-- A chain with nothing on it, whose contract answers no to everything. -/
def emptyChain : SimulatedChain where
  blocks := .empty
  transactions := .empty
  receipts := .empty
  views := .empty
  viewDefault := Abi.encode [.bool false]
  viewOverride := none
  refused := []
  down := false
  delay := 0

/-- A chain whose contract answers whether a token is registered as a minter. -/
def setMinter (c : SimulatedChain) (token : Address) (value : Bool) : SimulatedChain :=
  c.setView (Abi.encodeCall signatures.isMinter [.address token]) (Abi.encode [.bool value])

/-- A chain whose contract answers whether a platform transaction was carried out. -/
def setCompleted (c : SimulatedChain) (platformTxHash : String) (value : Bool) : SimulatedChain :=
  c.setView (Abi.encodeCall signatures.isCompleted [.string platformTxHash])
    (Abi.encode [.bool value])

/-! ## The quorum -/

/-- A member whose external address ends in its order. -/
def member (signAddress publicKey : String) (isSeed : Bool) (order : UInt32) : QuorumMember where
  signAddress := signAddress
  externalSignAddress := .low (Bytes.ofNat 4 order.toNat)
  signingPublicKey := publicKey
  isSeed := isSeed
  order := order

/-- The identity of a local node. -/
def identity : SigningIdentity := ⟨"local", relayer, "02aa", .fill 7⟩

/-- The configuration of the bridge contract for a chain can work. -/
theorem check_forContract (chain : ChainId) :
    (Config.forContract chain bridgeContract).check = .ok () := by rfl

/-- The bridge contract on a chain, without tokens. -/
def bridge (chain : ChainId) : Bridge :=
  ⟨.forContract chain bridgeContract, .empty, emptyChain.node, check_forContract chain⟩

/-- Signatures without any hashing, quick to evaluate. -/
def plainSignatures : Signatures where
  withdraw := .fill 1
  managerChange := .fill 2
  upgrade := .fill 3
  crossOut := .fill 4
  isCompleted := .fill 5
  isMinter := .fill 6
  depositFunds := .fill 7
  crossOutFunds := .fill 8
  erc20Transfer := .fill 9
  transferFunds := .fill 10
  withdrawCompleted := .fill 11
  managerChangeCompleted := .fill 12
  upgradeCompleted := .fill 13

/-- The bridge contract with these signatures on the chain 103, for the node of a chain. -/
def plainBridge (c : SimulatedChain) : Bridge where
  config := { Config.forContract 103 bridgeContract with signatures := plainSignatures }
  tokens := .empty
  node := c.node
  usable := by rfl

/-- An adapter for a chain. -/
def adapter (chain : ChainId) (version : UInt32) : Adapter := ⟨bridge chain, version, none⟩

/-- Members in quorum order. The second has a seed seat and a key that is not configured. -/
def members : List QuorumMember :=
  [member "c" "02aa" false 2, member "a" "02bb" true 3, member "b" "02cc" false 5]

/-- The members next to a store that holds them and fails as planned. -/
def docking (plan : FaultPlan) : Docking where
  registry := (Registry.ofQuorum ⟨[], 3, 67⟩).withMembers (Docking.bySignAddress members)
  store := ⟨Rows.apply .empty (members.map fun m =>
    .put (Members.key m.signAddress) (Codec.member.write m)), plan, []⟩

/-! ## Scanners -/

/-- The hash of the block at a height. Chains of different tags share the hashes below the cut. -/
def forkHash (cut : UInt64) (tag : UInt8) (height : UInt64) : Hash :=
  .low ((if height < cut then 0 else tag) :: Bytes.ofNat 8 height.toNat)

/-- The block at a height, without transactions. -/
def forkBlock (cut : UInt64) (tag : UInt8) (height : UInt64) : Block where
  hash := forkHash cut tag height
  parentHash := forkHash cut tag (height - 1)
  height := height
  timestamp := 1700000000
  transactions := []

/-- The answers of a node with the blocks up to a tip and nothing else. -/
def chainAnswers (block : UInt64 → Block) (tip : UInt64) : (call : NodeCall) → call.Answer
  | .block height => if height ≤ tip then some (block height) else none
  | call => emptyChain.answer call

/-- No served block is the last one that there is. -/
theorem height_of_chainAnswers {block : UInt64 → Block} {tip height : UInt64} {b : Block}
    (hblock : ∀ h, (block h).height = h) (htip : tip.toNat + 1 < UInt64.size)
    (h : chainAnswers block tip (.block height) = some b) :
    b.height = height ∧ height.toNat + 1 < UInt64.size := by
  obtain ⟨hle, h⟩ := Option.ite_none_right_eq_some.1 h
  cases h
  exact ⟨hblock height, Nat.lt_of_le_of_lt (Nat.succ_le_succ (UInt64.le_iff_toNat_le.1 hle)) htip⟩

/-- A node that gives answers, except for the calls on which it fails. -/
def flakyNode (answers : (call : NodeCall) → call.Answer) (fails : Exchanges → Bool) : Node where
  respond past call _ :=
    if fails past then .failed (.nodeUnavailable "mock node down") else .answer (answers call)

/-- Each of certain calls fails the first time that it is made. -/
def failingOnce (fails : StoreCall → Bool) : FaultPlan
  | [] => false
  | call :: past => fails call && !past.contains call

/-- A scanner that finds no bridge records. -/
def scanner (node : Node) (retention startHeight : UInt64) : Scanner where
  node := node
  analyze _ _ := pure none
  fits_analyze _ _ _ := fun r hr => by cases hr
  retention := retention
  timeLimit := 1000
  startHeight := startHeight

/-- A state with nothing scanned. -/
def scanState (plan : FaultPlan) : ScanState := ⟨[], .ofStore ⟨.empty, plan, []⟩, some ⟨[], false⟩⟩

end EvmBridge.Sample
