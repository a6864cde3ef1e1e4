import EvmBridge.Row.Layout
import EvmBridge.Store

/-! # The local block ledger

The headers of recently scanned blocks by height, and the bridge records found in those blocks by
transaction hash, kept as rows of a store. A slot in memory holds the newest header.

* `Ledger.headerKey`, `Ledger.heightOfKey?`: the keys of header rows. Heights are written with the
  most significant byte first, so that the key order is the order of heights.
* `Ledger.record`, `Ledger.latest`, `Ledger.byHeight`, `Ledger.delete`, `Ledger.rewind`,
  `Ledger.prune`, `Ledger.purge`: headers.
* `Ledger.cacheRecord`, `Ledger.cachedRecord`, `Ledger.evict`: bridge records.
-/

namespace EvmBridge
set_option autoImplicit false

/-- The ledger: its store, and the newest header if it is known. -/
structure Ledger where
  store : Store
  newest : Option Header

namespace Ledger

/-! ## Keys -/

/-- What the keys of header rows begin with: `hdr:`. -/
def headerTable : Bytes := [0x68, 0x64, 0x72, 0x3A]

/-- What the keys of bridge record rows begin with: `btx:`. -/
def recordTable : Bytes := [0x62, 0x74, 0x78, 0x3A]

/-- The key of the header at a height. -/
def headerKey (height : UInt64) : Bytes := headerTable ++ Bytes.ofNat 8 height.toNat

/-- The height whose header a key belongs to. -/
def heightOfKey? (key : Bytes) : Option UInt64 :=
  if headerTable.isPrefixOf key ∧ key.length = headerTable.length + 8 then
    some (UInt64.ofNat (Bytes.toNat (key.drop headerTable.length)))
  else none

/-- The key of the bridge record of a transaction. -/
def recordKey (hash : Hash) : Bytes := recordTable ++ hash.bytes

/-! ## Headers -/

/-- A ledger over a store whose newest header is not known yet. -/
def ofStore (store : Store) : Ledger := ⟨store, none⟩

/-- An action on the ledger's store. -/
def onStore {α : Type} (act : Action Store α) : Action Ledger α :=
  Action.within store (fun s l => { l with store := s }) act

/-- Sets the newest header. -/
def setNewest (h : Option Header) : Action Ledger Unit := fun l => .ok () { l with newest := h }

/-- Keeps a header and makes it the newest. If the store fails, the newest stays what it was. -/
def record (h : Header) : Action Ledger Unit := do
  onStore (Store.put (headerKey h.height) (Codec.header.write h))
  setNewest (some h)

/-- The header in a row, if there is a row. -/
def readHeader (row : Option Bytes) : Except BridgeError (Option Header) :=
  match row with
  | none => .ok none
  | some b => (Codec.header.decode b).map some

/-- The kept header at a height. -/
def byHeight (height : UInt64) : Action Ledger (Option Header) := do
  Action.ofExcept (readHeader (← onStore (Store.get (headerKey height))))

/-- The newest header: the one in the slot, or else the one of the last header row, which then
fills the slot. -/
def latest : Action Ledger (Option Header) := do
  match (← get).newest with
  | some h => return some h
  | none =>
    let rows ← onStore (Store.scan headerTable)
    let h ← Action.ofExcept (readHeader (rows.getLast?.map (·.2)))
    setNewest h
    return h

/-- Removes the kept header at a height. The slot stays. -/
def delete (height : UInt64) : Action Ledger Unit := onStore (Store.delete (headerKey height))

/-- Removes the kept header at a height and makes the one below it the newest. If there is none
below, the slot is empty afterwards. -/
def rewind (height : UInt64) : Action Ledger (Option Header) := do
  delete height
  let previous ← if height = 0 then pure none else byHeight (height - 1)
  setNewest previous
  return previous

/-! ## Bridge records -/

/-- Keeps a bridge record under its transaction. -/
def cacheRecord (r : Record) : Action Ledger Unit :=
  onStore (Store.put (recordKey r.txHash) (Codec.record.write r))

/-- The bridge record in a row, if there is a row. -/
def readRecord (row : Option Bytes) : Except BridgeError (Option Record) :=
  match row with
  | none => .ok none
  | some b => (Codec.record.decode b).map some

/-- The kept bridge record of a transaction. -/
def cachedRecord (hash : Hash) : Action Ledger (Option Record) := do
  Action.ofExcept (readRecord (← onStore (Store.get (recordKey hash))))

/-- Removes the bridge record of a transaction. -/
def evict (hash : Hash) : Action Ledger Unit := onStore (Store.delete (recordKey hash))

/-! ## Cutting off old blocks -/

/-- The keys of the header rows below a height. -/
def staleHeaders (below : UInt64) (rows : List (Bytes × Bytes)) : List Bytes :=
  (rows.map (·.1)).filter fun key => (heightOfKey? key).any (· < below)

/-- The keys of the bridge record rows below a height. Every row has to read. -/
def staleRecords (below : UInt64) : List (Bytes × Bytes) → Except BridgeError (List Bytes)
  | [] => .ok []
  | (key, row) :: rows => do
    let r ← Codec.record.decode row
    let keys ← staleRecords below rows
    return if r.blockHeight < below then key :: keys else keys

/-- Removes all headers, and all bridge records of blocks, below a height, in one batch. Answers the
number of headers removed. -/
def prune (below : UInt64) : Action Ledger Nat := do
  let headers := staleHeaders below (← onStore (Store.scan headerTable))
  let records ← Action.ofExcept (staleRecords below (← onStore (Store.scan recordTable)))
  unless (headers ++ records).isEmpty do
    onStore (Store.batch ((headers ++ records).map .delete))
  return headers.length

/-- Rewinds the newest header at most `limit` times, until there is none. Answers how often. -/
def purgeUpTo : (limit : Nat) → Action Ledger Nat
  | 0 => throw (.invariantViolation "more headers than heights")
  | n + 1 => do
    match ← latest with
    | none => return 0
    | some h =>
      let _ ← rewind h.height
      return (← purgeUpTo n) + 1

/-- Rewinds the newest header until there is none. Answers how often. Every rewind removes a row or
empties a slot that has no row, so that one more than there are heights is enough. -/
def purge : Action Ledger Nat := purgeUpTo (UInt64.size + 2)

end Ledger
end EvmBridge
