import EvmBridge.Quorum
import EvmBridge.Record
import EvmBridge.Row.Codec

/-! # Layouts of the stored rows

The codecs of kept headers, bridge records and quorum members, field by field.
-/

namespace EvmBridge
set_option autoImplicit false

/-- The place of a kind among the four kinds. -/
def TxKind.toIndex : TxKind → Fin 4
  | deposit => 0
  | withdrawal => 1
  | membershipChange => 2
  | upgradeAuthorization => 3

/-- The kind at a place. -/
def TxKind.ofIndex : Fin 4 → TxKind
  | 0 => deposit
  | 1 => withdrawal
  | 2 => membershipChange
  | 3 => upgradeAuthorization

namespace Codec

/-- A kept header. -/
def header : Codec Header :=
  via (pair (fixed 32) (pair (fixed 32) (pair u64 u64)))
    (fun h => (h.hash, h.parentHash, h.height, h.observedAt))
    (fun (hash, parentHash, height, observedAt) => ⟨hash, parentHash, height, observedAt⟩)

/-- A kind. -/
def kind : Codec TxKind := via (choice 4) TxKind.toIndex TxKind.ofIndex

/-- The fields of the native coin. -/
def nativeFields : Codec (UInt32 × UInt8) := pair u32 u8

/-- The fields of a token. -/
def tokenFields : Codec (Address × UInt32 × UInt8) := pair (fixed 20) (pair u32 u8)

/-- An asset: which of the two shapes, then its fields. -/
def asset : Codec Asset where
  write
    | .native id decimals => (choice 2).write 0 ++ nativeFields.write (id, decimals)
    | .token contract id decimals =>
      (choice 2).write 1 ++ tokenFields.write (contract, id, decimals)
  read := do
    match ← (choice 2).read with
    | 0 => do
      let (id, decimals) ← nativeFields.read
      return .native id decimals
    | 1 => do
      let (contract, id, decimals) ← tokenFields.read
      return .token contract id decimals

/-- A bridge record. -/
def record : Codec Record :=
  via (pair (fixed 32) (pair u64 (pair kind (pair (fixed 20) (pair (fixed 20) (pair amount
      (pair asset (pair (option text) (pair (list (fixed 20)) (pair (option text)
      (pair (list (fixed 20)) (list (fixed 20)))))))))))))
    (fun r => (r.txHash, r.blockHeight, r.kind, r.sender, r.recipient, r.value, r.asset,
      r.counterpart, r.signers, r.platformTxHash, r.addedMembers, r.removedMembers))
    (fun (txHash, blockHeight, kind, sender, recipient, value, asset, counterpart, signers,
        platformTxHash, addedMembers, removedMembers) =>
      ⟨txHash, blockHeight, kind, sender, recipient, value, asset, counterpart, signers,
        platformTxHash, addedMembers, removedMembers⟩)

/-- A quorum member. -/
def member : Codec QuorumMember :=
  via (pair text (pair (fixed 20) (pair text (pair bool u32))))
    (fun m => (m.signAddress, m.externalSignAddress, m.signingPublicKey, m.isSeed, m.order))
    (fun (signAddress, externalSignAddress, signingPublicKey, isSeed, order) =>
      ⟨signAddress, externalSignAddress, signingPublicKey, isSeed, order⟩)

end Codec
end EvmBridge
