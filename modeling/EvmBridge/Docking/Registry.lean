import EvmBridge.Docking.Adapter
import EvmBridge.Members

/-! # The docking registry

One adapter for each external chain, gated by the height of the platform's network, and the members
of the quorum.

* `Registry`: adapters, versions, activation heights, quorum, members, and which chains the local
  node is registered on as a signer.
* `Registry.register`, `Registry.adapter`, `Registry.allActive`: adapters.
* `Registry.ensureSigning`: registers the local node's identity on a chain once it is active.
* `Docking`: a registry together with the store of its members; `Docking.addMember` and
  `Docking.loadMembers` keep the two in step.
-/

namespace EvmBridge
set_option autoImplicit false

/-- The adapters and the quorum. -/
structure Registry where
  /-- One adapter for each chain. -/
  adapters : Table ChainId Adapter
  /-- The recorded version of each chain. -/
  versions : Table ChainId UInt32
  /-- The network height from which a chain is active; without an entry it always is. -/
  activationHeights : Table ChainId UInt64
  /-- The quorum parameters, which take effect with the next version switch. -/
  quorum : Quorum
  /-- The seed seats as of the last version switch. -/
  seedCount : Nat
  /-- The other seats as of the last version switch. -/
  nonSeedCount : Nat
  /-- The members by sign address. -/
  members : Table String QuorumMember
  /-- The local node's sign address. -/
  localAddress : Option String
  /-- Whether the local node is a member. -/
  localIsMember : Bool
  /-- The greatest network height observed. -/
  networkHeight : UInt64
  /-- The chains on which the local node is registered as a signer. -/
  latched : List ChainId

namespace Registry

/-- A registry without adapters and members. -/
def ofQuorum (q : Quorum) : Registry where
  adapters := .empty
  versions := .empty
  activationHeights := .empty
  quorum := q
  seedCount := q.seedCount
  nonSeedCount := q.nonSeedCount
  members := .empty
  localAddress := none
  localIsMember := false
  networkHeight := 0
  latched := []

/-- A registry without adapters and members that gates the chain of a usable configuration. -/
def ofConfig (c : Config) : Except BridgeError Registry :=
  c.check.map fun _ =>
    { ofQuorum c.quorum with
      activationHeights := Table.empty.insert c.chainId c.chainActivationHeight }

/-! ## Settings -/

/-- The registry with `localIsMember` as the members and the local address say. -/
def refreshLocal (r : Registry) : Registry :=
  { r with localIsMember := r.localAddress.any r.members.contains }

/-- The registry with other members. -/
def withMembers (r : Registry) (ms : Table String QuorumMember) : Registry :=
  { r with members := ms }.refreshLocal

/-- Sets the local node's sign address. -/
def setLocal (r : Registry) (address : Option String) : Registry :=
  { r with localAddress := address }.refreshLocal

/-- Sets the quorum parameters. The seats stay until the next version switch. -/
def setQuorum (r : Registry) (q : Quorum) : Registry := { r with quorum := q }

/-- Gates a chain until the network has reached a height. -/
def setActivation (r : Registry) (chain : ChainId) (height : UInt64) : Registry :=
  { r with activationHeights := r.activationHeights.insert chain height }

/-- Notes a network height. The greatest one counts. -/
def observe (r : Registry) (height : UInt64) : Registry :=
  { r with networkHeight := max r.networkHeight height }

/-! ## Adapters -/

/-- Registers an adapter for its chain, instead of any before. -/
def register (r : Registry) (a : Adapter) : Registry :=
  { r with
    adapters := r.adapters.insert a.chain a
    versions := r.versions.insert a.chain a.version }

/-- The adapter of a chain. -/
def adapter (r : Registry) (chain : ChainId) : Except BridgeError Adapter :=
  match r.adapters.get? chain with
  | some a => .ok a
  | none => .error (.unknownChain chain)

/-- The recorded version of a chain. -/
def version (r : Registry) (chain : ChainId) : Except BridgeError UInt32 :=
  match r.versions.get? chain with
  | some v => .ok v
  | none => .error (.unknownChain chain)

/-- Whether a chain is active at a network height. -/
def isActiveAt (r : Registry) (height : UInt64) (chain : ChainId) : Bool :=
  (r.activationHeights.get? chain).all (· ≤ height)

/-- The adapters of the chains that are active at a network height, by chain. -/
def allActive (r : Registry) (height : UInt64) : List Adapter :=
  (r.adapters.filter fun chain _ => r.isActiveAt height chain).values

/-- The members in quorum order: by order, then by sign address. -/
def orderedMembers (r : Registry) : List QuorumMember := Members.byOrder r.members.values

/-! ## Signing -/

/-- Registers the local node as a signer on a chain, once the network has reached the chain's
activation height, and answers whether it is registered. A given identity is imported unless the
adapter has one; if it cannot be, the chain stays open for another attempt. -/
def ensureSigning (r : Registry) (chain : ChainId) (identity : Option SigningIdentity) :
    Except BridgeError (Bool × Registry) :=
  if chain ∈ r.latched then .ok (true, r)
  else do
    let a ← r.adapter chain
    if r.networkHeight < (r.activationHeights.get? chain).getD 0 then return (false, r)
    else
      let latched := { r with latched := chain :: r.latched }
      match identity, a.signAddress? with
      | some i, none =>
        match a.importIdentity i with
        | .ok a => return (true, { latched with adapters := r.adapters.insert chain a })
        | .error _ => return (false, r)
      | _, _ => return (true, latched)

/-! ## Snapshots -/

/-- The version that each chain's adapter reports. -/
def adapterVersions (r : Registry) : List (ChainId × UInt32) :=
  r.adapters.entries.map fun e => (e.1, e.2.version)

end Registry

/-! ## Registry and store together -/

/-- A registry and the store of its members. -/
structure Docking where
  registry : Registry
  store : Store

namespace Docking

/-- Carries out a change that uses the store. If it fails the registry stays as it was, whatever the
store has done. -/
def transition {α : Type} (change : Registry → Action Store (α × Registry)) :
    Action Docking α := fun d =>
  match (change d.registry).run d.store with
  | .ok (a, r) s => .ok a ⟨r, s⟩
  | .error e s => .error e ⟨d.registry, s⟩

/-- Members by sign address, the later one counting where two have the same. -/
def bySignAddress (ms : List QuorumMember) : Table String QuorumMember :=
  Table.ofList (ms.map fun m => (m.signAddress, m))

/-- Takes the members from the store, and answers how many there are. -/
def loadMembers : Action Docking Nat :=
  transition fun r => do
    let ms := bySignAddress (← Members.load)
    return (ms.size, r.withMembers ms)

/-- Stores a member and adds it, instead of any with the same sign address. -/
def addMember (m : QuorumMember) : Action Docking Unit :=
  transition fun r => do
    Members.save m
    return ((), r.withMembers (r.members.insert m.signAddress m))

/-- Starts over with a new registry on the same store. -/
def restart (d : Docking) (r : Registry) : Docking := ⟨r, d.store⟩

end Docking
end EvmBridge
