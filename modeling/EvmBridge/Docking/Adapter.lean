import EvmBridge.Parsing

/-! # Docking adapters

An adapter is the bridge to one chain in one version of the contract, together with the identity
that the local node signs with there.
-/

namespace EvmBridge
set_option autoImplicit false

/-- The bridge to one chain in one version. -/
structure Adapter where
  bridge : Bridge
  version : UInt32
  identity : Option SigningIdentity

namespace Adapter

/-- The chain of an adapter. -/
def chain (a : Adapter) : ChainId := a.bridge.config.chainId

/-- The address that the local node signs with on the chain. -/
def signAddress? (a : Adapter) : Option Address := a.identity.map (·.externalAddress)

/-- The adapter with another identity, which has to have a public key. -/
def importIdentity (a : Adapter) (i : SigningIdentity) : Except BridgeError Adapter :=
  if i.publicKey = "" then .error (.config "signing identity without public key")
  else .ok { a with identity := some i }

/-- The height of the chain's last block. -/
def latestHeight (a : Adapter) : Action Exchanges UInt64 :=
  a.bridge.node.ask a.bridge.config.rpcTimeout .blockNumber

/-- Whether the contract has carried out a platform transaction, on confirmed state. -/
def isCompleted (a : Adapter) (platformTxHash : String) : Action Exchanges Bool :=
  a.bridge.isCompleted platformTxHash false

/-- Submits a signed transaction and answers its hash. -/
def submit (a : Adapter) (raw : Bytes) : Action Exchanges Hash :=
  a.bridge.node.ask a.bridge.config.rpcTimeout (.submit raw)

end Adapter
end EvmBridge
