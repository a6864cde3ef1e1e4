import EvmBridge.Ledger
import EvmBridge.Proofs.RecordLengths

/-! # Scanning the chain

Blocks are taken one at a time, each after the newest header of the ledger. A block counts as
scanned once its header is kept; only then are its bridge records forwarded.

* `Sink`: where bridge records are forwarded to.
* `Scanner`: how transactions are analysed, and how many headers are kept.
* `Scanner.analyzeBlock`: all that is done with one block.
* `Scanner.syncNext`: one step; a block that does not follow the newest header drops that header.
-/

namespace EvmBridge
set_option autoImplicit false

/-- Where bridge records go, in the order in which they are forwarded. -/
structure Sink where
  delivered : List Record
  /-- Whether nobody receives any more. -/
  closed : Bool
  deriving DecidableEq

/-- A sink with more records forwarded, unless nobody receives them. -/
def Sink.forward (s : Sink) (rs : List Record) : Sink :=
  if s.closed then s else { s with delivered := s.delivered ++ rs }

/-- How a chain is scanned. -/
structure Scanner where
  /-- The node that serves the blocks. -/
  node : Node
  /-- The bridge record of a transaction in a block of a given time. -/
  analyze : Transaction → UInt64 → Action Exchanges (Option Record)
  /-- The records can be kept as rows. -/
  fits_analyze : ∀ tx timestamp past, (analyze tx timestamp).Ends past
    (fun found _ => ∀ r ∈ found, r.Fits) fun _ _ => True
  /-- How many headers are kept below the newest one. -/
  retention : UInt64
  /-- The time limit for fetching a block, in milliseconds. -/
  timeLimit : UInt64
  /-- The first height to scan while the ledger is empty. -/
  startHeight : UInt64

/-- What a scanner works on. -/
structure ScanState where
  /-- The calls that the node got. -/
  exchanges : Exchanges
  ledger : Ledger
  sink : Option Sink

/-- What one step of a scanner did. -/
inductive ScanOutcome where
  /-- The block at this height is scanned. -/
  | advanced (height : UInt64)
  /-- The header at this height is dropped. -/
  | rewound (height : UInt64)
  /-- There is no next block yet. -/
  | upToDate
  deriving DecidableEq, Repr

namespace ScanState

/-- An action that asks the node. -/
def onNode {α : Type} (act : Action Exchanges α) : Action ScanState α :=
  Action.within exchanges (fun past s => { s with exchanges := past }) act

/-- An action on the ledger. -/
def onLedger {α : Type} (act : Action Ledger α) : Action ScanState α :=
  Action.within ledger (fun l s => { s with ledger := l }) act

/-- Forwards bridge records, if there is a sink. -/
def forward (rs : List Record) : Action ScanState Unit := fun s =>
  .ok () { s with sink := s.sink.map (·.forward rs) }

end ScanState

namespace Scanner
open ScanState

/-- The scanner of a bridge. -/
def ofBridge (b : Bridge) (retention timeLimit startHeight : UInt64) : Scanner where
  node := b.node
  analyze tx _ := b.analyze tx
  fits_analyze tx _ past := b.fits_analyze tx past
  retention := retention
  timeLimit := timeLimit
  startHeight := startHeight

/-- The bridge records of transactions, in order. The first failure ends it. -/
def analyzeAll (s : Scanner) (timestamp : UInt64) :
    List Transaction → Action Exchanges (List Record)
  | [] => return []
  | tx :: txs => do
    let found ← s.analyze tx timestamp
    let rest ← analyzeAll s timestamp txs
    return found.toList ++ rest

/-- Keeps bridge records, in order. -/
def cacheAll : List Record → Action Ledger Unit
  | [] => return ()
  | r :: rs => do
    Ledger.cacheRecord r
    cacheAll rs

/-- Analyses a block's transactions, keeps the bridge records and then the header, forwards the
records, and cuts off old blocks. Answers how many bridge records there are. -/
def analyzeBlock (s : Scanner) (now : UInt64) (b : Block) : Action ScanState Nat := do
  let found ← onNode (s.analyzeAll b.timestamp b.transactions)
  onLedger (cacheAll found)
  onLedger (Ledger.record ⟨b.hash, b.parentHash, b.height, now⟩)
  forward found
  if s.retention ≤ b.height then
    let _ ← onLedger (Ledger.prune (b.height - s.retention))
  return found.length

/-- The height after the newest header, or the first height to scan. -/
def nextHeight (s : Scanner) : Option Header → UInt64
  | some h => h.height + 1
  | none => s.startHeight

/-- Takes the next block. If its parent is not the newest header, that header is dropped and the
block is left for later. -/
def syncNext (s : Scanner) (now : UInt64) : Action ScanState ScanOutcome := do
  let newest ← onLedger Ledger.latest
  let next := s.nextHeight newest
  match ← onNode (s.node.ask s.timeLimit (.block next)) with
  | none => return .upToDate
  | some block =>
    match newest.filter (·.hash ≠ block.parentHash) with
    | some previous =>
      let _ ← onLedger (Ledger.rewind previous.height)
      return .rewound previous.height
    | none =>
      let _ ← s.analyzeBlock now block
      return .advanced next

end Scanner
end EvmBridge
