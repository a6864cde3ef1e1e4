import EvmBridge.Table

/-! # Assets and the tokens that the platform knows

* `Asset`: the chain's native coin or a token.
* `TokenTable`: the registered tokens by contract, and the assets that are bound to a minter.
-/

namespace EvmBridge
set_option autoImplicit false

/-- A token contract known to the platform. -/
structure TokenInfo where
  contract : Address
  assetId : UInt32
  decimals : UInt8
  symbol : String
  deriving DecidableEq

/-- What a bridge record moves. -/
inductive Asset where
  /-- The chain's native coin. -/
  | native (assetId : UInt32) (decimals : UInt8)
  /-- The token of a contract. -/
  | token (contract : Address) (assetId : UInt32) (decimals : UInt8)
  deriving DecidableEq

namespace Asset

/-- The asset of a registered token. -/
def ofToken (t : TokenInfo) : Asset := .token t.contract t.assetId t.decimals

/-- Whether the asset is a token. -/
def isToken : Asset → Bool
  | native .. => false
  | token .. => true

/-- The contract of a token. -/
def contract? : Asset → Option Address
  | native .. => none
  | token contract _ _ => some contract

/-- The platform's identifier of the asset. -/
def assetId : Asset → UInt32
  | native assetId _ | token _ assetId _ => assetId

/-- The number of decimal places of the asset. -/
def decimals : Asset → UInt8
  | native _ decimals | token _ _ decimals => decimals

end Asset

/-- The tokens that the platform knows. -/
structure TokenTable where
  /-- The registered tokens by contract. -/
  tokens : Table Address TokenInfo
  /-- The assets that count only while their contract is registered as a minter. -/
  bound : List UInt32
  /-- Every token stands under its own contract. -/
  filed : ∀ {contract info}, tokens.get? contract = some info → info.contract = contract

namespace TokenTable

/-- No tokens. -/
def empty : TokenTable := ⟨.empty, [], fun h => by simp [Table.get?_empty] at h⟩

instance : Inhabited TokenTable := ⟨empty⟩

/-- The table with a token registered, instead of any with the same contract. -/
def register (t : TokenTable) (info : TokenInfo) : TokenTable where
  tokens := t.tokens.insert info.contract info
  bound := t.bound
  filed := by
    intro contract other h
    rw [Table.get?_insert] at h
    split at h
    next hc => cases h; exact hc
    next => exact t.filed h

/-- The table with an asset bound. -/
def bindAsset (t : TokenTable) (assetId : UInt32) : TokenTable :=
  { t with bound := assetId :: t.bound }

/-- The token of a contract. -/
def lookup (t : TokenTable) (contract : Address) : Option TokenInfo := t.tokens.get? contract

/-- Whether an asset is bound. -/
def isBound (t : TokenTable) (assetId : UInt32) : Bool := t.bound.contains assetId

end TokenTable
end EvmBridge
