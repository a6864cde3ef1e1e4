import EvmBridge.BridgeError
import EvmBridge.Quorum
import EvmBridge.Signatures
import EvmBridge.Text.Blank
import EvmBridge.Text.Numeral

/-! # Configuration of the bridge to one chain

* `Config`: everything that the bridge takes from the platform's configuration;
  `Config.standard` holds the default values.
* `Config.check`: the first thing that makes a configuration unusable.
* `Config.withSettings`: a configuration with the environment's settings applied. A setting that
  does not read is left out.
-/

namespace EvmBridge
set_option autoImplicit false

/-- The configuration of the bridge to one external chain. -/
structure Config where
  chainId : ChainId
  /-- The contract whose calls and events the bridge follows. -/
  bridgeContract : Address
  signatures : Signatures
  nativeAssetId : UInt32
  nativeDecimals : UInt8
  /-- The platform height from which the chain is visible. -/
  chainActivationHeight : UInt64
  /-- The external height from which cross-out deposits are accepted. -/
  crossOutActivationHeight : UInt64
  /-- How many headers are kept below the newest one. -/
  headerRetention : UInt64
  /-- The time limit of each call to the node, in milliseconds. -/
  rpcTimeout : UInt64
  quorum : Quorum
  deriving DecidableEq

namespace Config

/-- The header retention when none is configured. -/
def standardRetention : UInt64 := 3

/-- The time limit of a call when none is configured, in milliseconds. -/
def standardTimeout : UInt64 := 10000

/-- The default configuration. It names no contract yet. -/
def standard : Config where
  chainId := 103
  bridgeContract := .zero
  signatures := .standard
  nativeAssetId := 1
  nativeDecimals := 18
  chainActivationHeight := 0
  crossOutActivationHeight := 0
  headerRetention := standardRetention
  rpcTimeout := standardTimeout
  quorum := ⟨[], 15, 66⟩

/-- The default configuration for a chain and a bridge contract. -/
def forContract (chain : ChainId) (contract : Address) : Config :=
  { standard with chainId := chain, bridgeContract := contract }

/-- Refuses a configuration that cannot work, naming the first reason. -/
def check (c : Config) : Except BridgeError Unit :=
  if c.bridgeContract.isZero then .error (.config "bridge contract address not set")
  else if c.headerRetention = 0 then .error (.config "header retention must be at least 1")
  else if c.quorum.totalSeats < c.quorum.seedCount then
    .error (.config (toString c.quorum.seedCount ++ " seed keys exceed " ++
      toString c.quorum.totalSeats ++ " total seats"))
  else if 100 < c.quorum.byzantineRatio then .error (.config "byzantine ratio is a percentage")
  else .ok ()

/-- The keys of a list separated by commas, without blanks around them and without empty ones. -/
def seedKeyList (s : String) : List String :=
  ((s.splitOn ",").map fun part => String.ofList (Blank.strip part.toList)).filter (· ≠ "")

/-- A configuration with the settings of the environment applied, `setting` answering the value of
a name. A value that does not read changes nothing. -/
def withSettings (c : Config) (setting : String → Option String) : Config :=
  let number (bound : Nat) (name : String) : Option Nat :=
    (setting name).bind (Numeral.unsigned? bound)
  { c with
    bridgeContract := ((setting "QC_BRIDGE_CONTRACT").bind fun s =>
      (FixedBytes.ofText s).toOption).getD c.bridgeContract
    chainId := ((number UInt16.size "QC_BRIDGE_CHAIN_ID").map UInt16.ofNat).getD c.chainId
    chainActivationHeight := ((number UInt64.size "QC_BRIDGE_ACTIVATION_HEIGHT").map
      UInt64.ofNat).getD c.chainActivationHeight
    crossOutActivationHeight := ((number UInt64.size "QC_BRIDGE_CROSS_OUT_HEIGHT").map
      UInt64.ofNat).getD c.crossOutActivationHeight
    rpcTimeout := ((number UInt64.size "QC_BRIDGE_RPC_TIMEOUT_MS").map
      UInt64.ofNat).getD c.rpcTimeout
    quorum := { c.quorum with
      seedKeys := ((setting "QC_BRIDGE_SEED_PUBKEYS").map seedKeyList).getD c.quorum.seedKeys
      totalSeats := (number UInt64.size "QC_BRIDGE_TOTAL_SEATS").getD c.quorum.totalSeats } }

end Config
end EvmBridge
