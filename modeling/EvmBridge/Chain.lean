import EvmBridge.FixedBytes

/-! # What the external chain shows

Transactions, blocks, receipts and event logs as a node reports them, and the header of a block that
the bridge keeps.
-/

namespace EvmBridge
set_option autoImplicit false

/-- A transaction. -/
structure Transaction where
  hash : Hash
  /-- The height of its block, once it is in one. -/
  blockHeight : Option UInt64
  sender : Address
  /-- The account or contract it is sent to; none if it creates a contract. -/
  recipient : Option Address
  /-- The native coin sent along. -/
  value : U256
  /-- The calldata. -/
  input : Bytes
  deriving DecidableEq

/-- A block with its transactions in order. -/
structure Block where
  hash : Hash
  parentHash : Hash
  height : UInt64
  /-- When the block was made, in seconds. -/
  timestamp : UInt64
  transactions : List Transaction
  deriving DecidableEq

/-- An event that a contract emitted. -/
structure Log where
  /-- The contract that emitted it. -/
  address : Address
  /-- The indexed words; the first names the event. -/
  topics : List Hash
  /-- The words that are not indexed. -/
  data : Bytes
  deriving DecidableEq

/-- The outcome of a transaction. -/
structure Receipt where
  txHash : Hash
  /-- Whether the transaction was carried out. -/
  status : Bool
  /-- The events in the order they were emitted. -/
  logs : List Log
  deriving DecidableEq

/-- The kept header of a scanned block. -/
structure Header where
  hash : Hash
  parentHash : Hash
  height : UInt64
  /-- When the block was scanned, in milliseconds. -/
  observedAt : UInt64
  deriving DecidableEq

end EvmBridge
