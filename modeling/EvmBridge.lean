import EvmBridge.Abi.Decode
import EvmBridge.Abi.Encode
import EvmBridge.Abi.Value
import EvmBridge.Asset
import EvmBridge.Authorization
import EvmBridge.Bridge
import EvmBridge.BridgeError
import EvmBridge.Bytes
import EvmBridge.Call
import EvmBridge.Chain
import EvmBridge.Config
import EvmBridge.Deposit
import EvmBridge.Docking.Adapter
import EvmBridge.Docking.Registry
import EvmBridge.Docking.Switch
import EvmBridge.Event
import EvmBridge.FixedBytes
import EvmBridge.Keccak
import EvmBridge.Ledger
import EvmBridge.Members
import EvmBridge.Node
import EvmBridge.Parsing
import EvmBridge.Proofs.Numbers
import EvmBridge.Quorum
import EvmBridge.Record
import EvmBridge.Row.Amount
import EvmBridge.Row.Codec
import EvmBridge.Row.Layout
import EvmBridge.Sample
import EvmBridge.Scanner
import EvmBridge.Signatures
import EvmBridge.Store
import EvmBridge.Table
import EvmBridge.Text.Blank
import EvmBridge.Text.Hex
import EvmBridge.Text.Numeral
import EvmBridge.Text.Quoted
import EvmBridge.Text.Unprintable
import EvmBridge.Text.Utf8
import EvmBridge.Withdrawal
import EvmBridge.Proofs.AmountText
import EvmBridge.Proofs.Outcome
import EvmBridge.Proofs.HexText
import EvmBridge.Proofs.LastWrites
import EvmBridge.Proofs.StoreCalls
import EvmBridge.Proofs.TextLengths
import EvmBridge.Proofs.RowRoundTrip
import EvmBridge.Proofs.Abi.Reading
import EvmBridge.Proofs.RecordLengths
import EvmBridge.Proofs.PrefixScan
import EvmBridge.Proofs.Tables
import EvmBridge.Proofs.LiveRows
import EvmBridge.Proofs.Ledger.Keys
import EvmBridge.Proofs.Ledger.Contents
import EvmBridge.Proofs.Ledger.Operations
import EvmBridge.Proofs.Scan.Step
import EvmBridge.Proofs.Scan.Run
import EvmBridge.Proofs.Heights
import EvmBridge.Proofs.Scan.Linkage
import EvmBridge.Proofs.Scan.Window
import EvmBridge.Proofs.Scan.Reorg
import EvmBridge.Proofs.Scan.Forwarding
import EvmBridge.Proofs.Scan.FailedCall
import EvmBridge.Proofs.Docking.Switch
import EvmBridge.Proofs.Docking.MemberOrder
import EvmBridge.Proofs.Docking.StoredMembers
import EvmBridge.Proofs.Docking.SavedMembers
import EvmBridge.Proofs.WrittenRows
import EvmBridge.Proofs.Docking.Recovery
import EvmBridge.Proofs.Parsing.WellFormed
import EvmBridge.Proofs.Parsing.CrossOut
import EvmBridge.Proofs.Parsing.Failures
import EvmBridge.Proofs.Parsing.Emitters
import EvmBridge.Proofs.Parsing.TokenCrossOut
import EvmBridge.Proofs.Parsing.DecidingLog
import EvmBridge.Proofs.Parsing.PlainDeposit
import EvmBridge.Proofs.Ledger.Refinement
import EvmBridge.Proofs.StoreParts
import EvmBridge.Proofs.Ledger.Calls
import EvmBridge.Proofs.Ledger.OwnRows
import EvmBridge.Proofs.Ledger.Retry
import EvmBridge.Proofs.SharedStore
import EvmBridge.Proofs.Parsing.Kinds
import EvmBridge.Proofs.Docking.History
import EvmBridge.Proofs.Docking.Invariant
import EvmBridge.Proofs.Docking.SwitchEffect
import EvmBridge.Proofs.Docking.Signing
import EvmBridge.Proofs.Docking.Reload
import EvmBridge.Proofs.Abi.RoundTrip
import EvmBridge.Proofs.Abi.Arguments
import EvmBridge.Proofs.Abi.Calldata
import EvmBridge.Proofs.Abi.Events
import EvmBridge.Proofs.Scan.Retention
import EvmBridge.Proofs.Ledger.Purge
import EvmBridge.Proofs.Ledger.HeightOrder
import EvmBridge.Proofs.StoredValues
import EvmBridge.Proofs.Parsing.Completion
import EvmBridge.Proofs.Parsing.Stages
import EvmBridge.Proofs.ViewAnswers
import EvmBridge.Proofs.Parsing.ReceiptSources
import EvmBridge.Proofs.Parsing.Rereading
import EvmBridge.Proofs.Scan.Orphans
