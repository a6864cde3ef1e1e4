import EvmBridge.Docking.Registry

/-! # Version switches

When the contract of a chain is upgraded, its adapter and version change, the seats are counted
anew, seed members whose keys are no longer configured leave the quorum, and the others are numbered
from 1.

* `SwitchOutcome`: what a switch did.
* `Registry.leaving`, `Registry.remaining`: the members who leave, and the others with their new
  numbers.
* `Docking.switchVersion`: the whole switch. Members are stored first; if that fails the registry
  stays as it was.
-/

namespace EvmBridge
set_option autoImplicit false

/-- What a version switch did. -/
structure SwitchOutcome where
  version : UInt32
  /-- The members who left, in quorum order. -/
  removed : List QuorumMember
  /-- Whether the local node was among them. -/
  localRemoved : Bool
  seedCount : Nat
  nonSeedCount : Nat
  deriving DecidableEq

namespace Registry

/-- Whether a member has a seed seat with a key that is not configured. -/
def losesSeat (r : Registry) (m : QuorumMember) : Bool :=
  m.isSeed && !r.quorum.isSeedKey m.signingPublicKey

/-- The members who leave with the next switch, in quorum order. -/
def leaving (r : Registry) : List QuorumMember := r.orderedMembers.filter r.losesSeat

/-- Members with their places as order, counted from a number. The greatest order is 2³² - 1. -/
def numberFrom : Nat → List QuorumMember → List QuorumMember
  | _, [] => []
  | n, m :: ms =>
    { m with order := UInt32.ofNat (min n (UInt32.size - 1)) } :: numberFrom (n + 1) ms

/-- The members who stay with the next switch, in quorum order and numbered from 1. -/
def remaining (r : Registry) : List QuorumMember :=
  numberFrom 1 (r.orderedMembers.filter fun m => !r.losesSeat m)

/-- Whether the local node leaves with the next switch. -/
def localLeaves (r : Registry) : Bool :=
  r.localAddress.any fun a => r.leaving.any (·.signAddress = a)

/-- What the next switch does. -/
def switchOutcome (r : Registry) (version : UInt32) : SwitchOutcome where
  version := version
  removed := r.leaving
  localRemoved := r.localLeaves
  seedCount := r.quorum.seedCount
  nonSeedCount := r.quorum.nonSeedCount

/-- The registry after a switch of a chain to an adapter and version. -/
def afterSwitch (r : Registry) (chain : ChainId) (a : Adapter) (version : UInt32) : Registry :=
  { r with
    adapters := r.adapters.insert chain a
    versions := r.versions.insert chain version
    seedCount := r.quorum.seedCount
    nonSeedCount := r.quorum.nonSeedCount
    members := Docking.bySignAddress r.remaining
    localIsMember := r.localIsMember && !r.localLeaves }

end Registry

namespace Docking

/-- Removes members from the store, in order. -/
def removeAll : List QuorumMember → Action Store Unit
  | [] => return ()
  | m :: ms => do
    Members.remove m.signAddress
    removeAll ms

/-- Stores members, in order. -/
def saveAll : List QuorumMember → Action Store Unit
  | [] => return ()
  | m :: ms => do
    Members.save m
    saveAll ms

/-- Switches a chain to an adapter and version. The adapter has to be one for that chain; a chain
without an adapter so far is registered thereby. -/
def switchVersion (chain : ChainId) (a : Adapter) (version : UInt32) :
    Action Docking SwitchOutcome := do
  if a.chain ≠ chain then
    throw (.config ("adapter for chain " ++ toString a.chain.toNat ++ " registered under " ++
      toString chain.toNat))
  transition fun r => do
    removeAll r.leaving
    saveAll r.remaining
    return (r.switchOutcome version, r.afterSwitch chain a version)

end Docking
end EvmBridge
