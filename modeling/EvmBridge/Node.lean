import EvmBridge.BridgeError
import EvmBridge.Chain
import EvmBridge.Keccak
import EvmBridge.Table

/-! # Nodes of the external chain

* `NodeCall`: what a node can be asked, and `NodeCall.Answer`, the type of the answer.
* `Node`: a node as a rule of answering, which may look at all earlier calls.
* `Node.ask`: one call within a time limit, noted among the calls made.
* `SimulatedChain`: a chain kept in tables, with a delay and failures that can be set.
-/

namespace EvmBridge
set_option autoImplicit false

/-! ## Calls -/

/-- What a node can be asked. -/
inductive NodeCall where
  | blockNumber
  | block (height : UInt64)
  | transaction (hash : Hash)
  | receipt (hash : Hash)
  /-- A read-only call, on the latest state or on the last confirmed one. -/
  | view (contract : Address) (data : Bytes) (latest : Bool)
  | submit (raw : Bytes)
  deriving DecidableEq

namespace NodeCall

/-- What a call answers. -/
abbrev Answer : NodeCall → Type
  | blockNumber => UInt64
  | block _ => Option Block
  | transaction _ => Option Transaction
  | receipt _ => Option Receipt
  | view .. => Bytes
  | submit _ => Hash

/-- The name of the called method. -/
def method : NodeCall → String
  | blockNumber => "get_block_number"
  | block _ => "get_block_by_height"
  | transaction _ => "get_transaction"
  | receipt _ => "get_transaction_receipt"
  | view .. => "call_view"
  | submit _ => "send_raw_transaction"

/-- The arguments of a call as a diagnostic shows them. -/
def arguments : NodeCall → String
  | blockNumber => ""
  | block height => toString height.toNat
  | transaction hash | receipt hash => Hex.encode hash.bytes
  | view contract data latest =>
    Hex.encode contract.bytes ++ "," ++ Hex.encode data ++ "," ++ toString latest
  | submit raw => Hex.encode raw

/-- A call as a diagnostic shows it. -/
def text (c : NodeCall) : String := c.method ++ "(" ++ c.arguments ++ ")"

end NodeCall

/-- What comes of a call. -/
inductive Reply (α : Type) where
  | answer (a : α)
  /-- The node fails. -/
  | failed (e : BridgeError)
  /-- The node does not answer within the time limit. -/
  | late

/-- A call that was made, and whether it was answered. -/
structure Exchange where
  call : NodeCall
  answered : Bool
  deriving DecidableEq

/-- The calls made so far, the last one first. -/
abbrev Exchanges := List Exchange

/-- A node: how it replies to a call within a time limit in milliseconds, given the exchanges before
it. -/
structure Node where
  respond : Exchanges → (c : NodeCall) → (limit : UInt64) → Reply c.Answer

/-- Makes a call within a time limit. -/
def Node.ask (n : Node) (limit : UInt64) (c : NodeCall) : Action Exchanges c.Answer := fun past =>
  match n.respond past c limit with
  | .answer a => .ok a (⟨c, true⟩ :: past)
  | .failed e => .error e (⟨c, false⟩ :: past)
  | .late => .error (.timeout c.method limit) (⟨c, false⟩ :: past)

/-! ## A simulated chain -/

/-- A chain kept in tables. -/
structure SimulatedChain where
  blocks : Table UInt64 Block
  transactions : Table Hash Transaction
  /-- Receipts by transaction hash. -/
  receipts : Table Hash Receipt
  /-- The outputs of read-only calls by calldata. -/
  views : Table Bytes Bytes
  /-- The output of read-only calls that no entry answers. -/
  viewDefault : Bytes
  /-- The output of all read-only calls, while it is set. -/
  viewOverride : Option Bytes
  /-- The methods that fail at once. -/
  refused : List String
  /-- Whether every call fails. -/
  down : Bool
  /-- How long each call takes, in milliseconds. -/
  delay : UInt64

namespace SimulatedChain

/-- The chain with a block, instead of any at that height, and its transactions. -/
def addBlock (c : SimulatedChain) (b : Block) : SimulatedChain :=
  { c with
    blocks := c.blocks.insert b.height b
    transactions := b.transactions.foldl (fun t tx => t.insert tx.hash tx) c.transactions }

/-- The chain with a transaction, and its receipt if there is one. -/
def addTransaction (c : SimulatedChain) (tx : Transaction) (receipt : Option Receipt) :
    SimulatedChain :=
  { c with
    transactions := c.transactions.insert tx.hash tx
    receipts := match receipt with
      | some r => c.receipts.insert tx.hash r
      | none => c.receipts }

/-- The chain with a receipt. -/
def addReceipt (c : SimulatedChain) (r : Receipt) : SimulatedChain :=
  { c with receipts := c.receipts.insert r.txHash r }

/-- The chain with an output for a read-only call. -/
def setView (c : SimulatedChain) (data output : Bytes) : SimulatedChain :=
  { c with views := c.views.insert data output }

/-- The hash of a submitted transaction: that of its hexadecimal text. -/
def submittedHash (raw : Bytes) : Hash := Keccak.hashText (Hex.encode raw)

/-- The answer to a call. -/
def answer (c : SimulatedChain) : (call : NodeCall) → call.Answer
  | .blockNumber => (c.blocks.last?.map (·.1)).getD 0
  | .block height => c.blocks.get? height
  | .transaction hash => c.transactions.get? hash
  | .receipt hash => c.receipts.get? hash
  | .view _ data _ => c.viewOverride.getD ((c.views.get? data).getD c.viewDefault)
  | .submit raw => submittedHash raw

/-- How the chain's node replies: a refused method fails at once, any other call after the delay. -/
def respond (c : SimulatedChain) (call : NodeCall) (limit : UInt64) : Reply call.Answer :=
  if c.refused.contains call.method then
    .failed (.nodeUnavailable ("injected " ++ call.method))
  else if limit < c.delay then .late
  else if c.down then .failed (.nodeUnavailable "mock node down")
  else .answer (c.answer call)

/-- The chain's node. -/
def node (c : SimulatedChain) : Node := ⟨fun _ call limit => c.respond call limit⟩

end SimulatedChain
end EvmBridge
