import EvmBridge.Row.Layout
import EvmBridge.Store

/-! # The stored quorum

The members of the quorum as rows of a store, one for each sign address.

* `Members.save`, `Members.remove`: one member.
* `Members.load`: all members by their order; members of the same order stay in the order of their
  sign addresses.
-/

namespace EvmBridge.Members
set_option autoImplicit false

/-- What the keys of member rows begin with: `qm:`. -/
def table : Bytes := [0x71, 0x6D, 0x3A]

/-- The key of a member. -/
def key (signAddress : String) : Bytes := table ++ Utf8.encode signAddress

/-- Stores a member, instead of any with the same sign address. -/
def save (m : QuorumMember) : Action Store Unit :=
  Store.put (key m.signAddress) (Codec.member.write m)

/-- Removes a member. -/
def remove (signAddress : String) : Action Store Unit := Store.delete (key signAddress)

/-- Members by order, those of the same order as they were. -/
def byOrder (ms : List QuorumMember) : List QuorumMember :=
  ms.mergeSort fun a b => a.order ≤ b.order

/-- All members by order. -/
def load : Action Store (List QuorumMember) := do
  let rows ← Store.scan table
  let ms ← Action.ofExcept (rows.mapM fun row => Codec.member.decode row.2)
  return byOrder ms

end EvmBridge.Members
