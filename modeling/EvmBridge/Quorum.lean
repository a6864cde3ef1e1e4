import EvmBridge.FixedBytes

/-! # The signing quorum

* `Quorum`: the seats of the quorum and the public keys that hold seed seats.
* `QuorumMember`: one member, with its 1-based position.
* `SigningIdentity`: the local node's keys. Its text never shows the private key.
-/

namespace EvmBridge
set_option autoImplicit false

/-- The platform's quorum parameters. -/
structure Quorum where
  /-- Public keys of the seed members. -/
  seedKeys : List String
  /-- Seats of seed and other members together. -/
  totalSeats : Nat
  /-- The threshold, in percent. -/
  byzantineRatio : UInt8
  deriving DecidableEq, Repr

namespace Quorum

/-- The number of seed seats. -/
def seedCount (q : Quorum) : Nat := q.seedKeys.length

/-- The seats left for elected members. -/
def nonSeedCount (q : Quorum) : Nat := q.totalSeats - q.seedCount

/-- Whether two keys differ at most in the case of ASCII letters. -/
def sameKey (a b : String) : Bool := a.toList.map Char.toLower = b.toList.map Char.toLower

/-- Whether a public key is one of the seed keys. -/
def isSeedKey (q : Quorum) (key : String) : Bool := q.seedKeys.any (sameKey · key)

end Quorum

/-- A member of the quorum. -/
structure QuorumMember where
  /-- The platform address that the member signs with; it identifies the member. -/
  signAddress : String
  /-- The address that the member signs with on the external chain. -/
  externalSignAddress : Address
  signingPublicKey : String
  isSeed : Bool
  /-- The position in the quorum, counted from 1. -/
  order : UInt32
  deriving DecidableEq

/-- The keys of the local node. -/
structure SigningIdentity where
  platformAddress : String
  externalAddress : Address
  publicKey : String
  privateKey : FixedBytes 32
  deriving DecidableEq

namespace SigningIdentity

/-- What stands in the place of a private key. -/
def hiddenKey : String := "SecureKey(***)"

/-- The identity as a diagnostic shows it. -/
def text (i : SigningIdentity) : String :=
  "SigningIdentity \x7b platform_address: " ++ Quoted.text i.platformAddress ++
    ", external_address: " ++ i.externalAddress.text ++
    ", public_key: " ++ Quoted.text i.publicKey ++
    ", private_key: " ++ hiddenKey ++ " \x7d"

end SigningIdentity
end EvmBridge
