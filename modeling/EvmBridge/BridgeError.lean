/-! # Errors of the bridge

* `BridgeError`: why an operation fails, and `BridgeError.message`, the wording.
* `BridgeError.isRetryable`: whether the same operation may succeed later.
* `Action σ α`: a computation on a state `σ` that may fail. Failing does not undo what was done to
  the state before.
-/

namespace EvmBridge
set_option autoImplicit false

/-- The identifier that the platform gives to an external chain. -/
abbrev ChainId := UInt16

/-- Why an operation of the bridge fails. -/
inductive BridgeError where
  /-- Calldata, an event or a view's output has fields that are missing or inconsistent. -/
  | malformedData (detail : String)
  /-- The external chain's node failed. -/
  | nodeUnavailable (detail : String)
  /-- The external chain's node did not answer within a time limit, in milliseconds. -/
  | timeout (operation : String) (limit : UInt64)
  /-- The key-value store failed. -/
  | storage (detail : String)
  /-- A stored row could not be read. -/
  | serialization (detail : String)
  /-- No adapter was ever registered for the chain. -/
  | unknownChain (chain : ChainId)
  /-- The state has a shape that no operation produces. -/
  | invariantViolation (detail : String)
  /-- A configuration value is invalid. -/
  | config (detail : String)
  deriving DecidableEq, Repr

namespace BridgeError

/-- The wording of an error. -/
def message : BridgeError → String
  | malformedData detail => "Malformed data: " ++ detail
  | nodeUnavailable detail => "Upstream unavailable: " ++ detail
  | timeout operation limit => "Timed out after " ++ toString limit.toNat ++ "ms: " ++ operation
  | storage detail => "Storage error: " ++ detail
  | serialization detail => "Serialization error: " ++ detail
  | unknownChain chain => "Unknown external chain: " ++ toString chain.toNat
  | invariantViolation detail => "Invariant violation: " ++ detail
  | config detail => "Config error: " ++ detail

/-- Whether the same height or transaction may be tried again. -/
def isRetryable : BridgeError → Bool
  | nodeUnavailable _ | timeout .. | storage _ | serialization _ => true
  | malformedData _ | unknownChain _ | invariantViolation _ | config _ => false

end BridgeError

/-- A computation on a state that may fail; the state it had reached stays. -/
abbrev Action (σ α : Type) := EStateM BridgeError σ α

namespace Action
variable {σ τ α : Type}

/-- An action on a part of the state, given how to read the part and how to put it back. -/
def within (read : σ → τ) (write : τ → σ → σ) (act : Action τ α) : Action σ α := fun s =>
  match act.run (read s) with
  | .ok a t => .ok a (write t s)
  | .error e t => .error e (write t s)

/-- The outcome of an action without the state. -/
def outcome (act : Action σ α) (s : σ) : Except BridgeError α :=
  match act.run s with
  | .ok a _ => .ok a
  | .error e _ => .error e

/-- The state that an action leaves, whether it fails or not. -/
def final (act : Action σ α) (s : σ) : σ :=
  match act.run s with
  | .ok _ t => t
  | .error _ t => t

/-- An action that needs no state. -/
def ofExcept (r : Except BridgeError α) : Action σ α := fun s =>
  match r with
  | .ok a => .ok a s
  | .error e => .error e s

end Action
end EvmBridge
