import EvmBridge.Abi.Decode
import EvmBridge.Abi.Encode
import EvmBridge.BridgeError
import EvmBridge.Record
import EvmBridge.Signatures

/-! # Calls of the bridge contract

* `Method`: the contract's methods with their argument layouts.
* `Signatures.methodOf?`: the method that calldata names by its selector.
* `Intent`, `Signatures.classify`: what calldata asks for, from the calldata alone.
* `Call.crossOut`, `Call.managerChange`: the arguments that the bridge uses.
* `CallFault`: why calldata or a view's output does not decode.
-/

namespace EvmBridge
set_option autoImplicit false

/-- The methods of the bridge contract. -/
inductive Method where
  | withdraw
  | managerChange
  | upgrade
  | crossOut
  deriving DecidableEq, Repr

namespace Method

/-- The types of a method's arguments. -/
def layout : Method → List AbiType
  | withdraw => [.string, .address, .uint 256, .bool, .address, .bytes]
  | managerChange => [.string, .array .address, .array .address, .uint 8, .bytes]
  | upgrade => [.string, .address, .bytes]
  | crossOut => [.string, .uint 256, .address]

/-- All methods, in the order in which calldata is compared with them. -/
def all : List Method := [withdraw, managerChange, upgrade, crossOut]

end Method

/-- The selector of a method. -/
def Signatures.selector (s : Signatures) : Method → Selector
  | .withdraw => s.withdraw
  | .managerChange => s.managerChange
  | .upgrade => s.upgrade
  | .crossOut => s.crossOut

/-- The method that calldata names: the first whose selector begins it. -/
def Signatures.methodOf? (s : Signatures) (input : Bytes) : Option Method :=
  if input.length < 4 then none
  else Method.all.find? fun m => (s.selector m).bytes = input.take 4

/-! ## Arguments -/

/-- Why calldata or a view's output does not decode. -/
inductive CallFault where
  /-- There is no whole selector. -/
  | tooShort
  /-- The bytes do not hold values of the types asked for. -/
  | undecodable (fault : AbiFault)
  /-- A value is of another type than the one asked for. -/
  | mismatch (expected : String)
  deriving DecidableEq, Repr

namespace CallFault

/-- The wording of a fault. -/
def message : CallFault → String
  | tooShort => "calldata shorter than selector"
  | undecodable fault => fault.message
  | mismatch expected => "expected " ++ expected

/-- The fault as an error of the bridge. -/
def toError (f : CallFault) : BridgeError := .malformedData f.message

end CallFault

namespace Call

/-- The values of a list of types. -/
def values (ts : List AbiType) (data : Bytes) : Except CallFault (List AbiValue) :=
  (Abi.decode ts data).mapError .undecodable

/-- The value at a position of a list, read as one of a certain type. -/
def field {α : Type} (read : AbiValue → Option α) (expected : String) (vs : List AbiValue)
    (i : Nat) : Except CallFault α :=
  match vs[i]?.bind read with
  | some a => .ok a
  | none => .error (.mismatch expected)

/-- The text at a position of a list of values. -/
def stringField (vs : List AbiValue) (i : Nat) : Except CallFault String :=
  field AbiValue.string? "string" vs i

/-- The address at a position of a list of values. -/
def addressField (vs : List AbiValue) (i : Nat) : Except CallFault Address :=
  field AbiValue.address? "address" vs i

/-- The number at a position of a list of values. -/
def uintField (vs : List AbiValue) (i : Nat) : Except CallFault U256 :=
  field AbiValue.uint? "uint" vs i

/-- The addresses at a position of a list of values. -/
def addressesField (vs : List AbiValue) (i : Nat) : Except CallFault (List Address) :=
  field AbiValue.addresses? "address[]" vs i

/-- The arguments after the selector, read by a method's layout. The selector itself is not looked
at. -/
def arguments (m : Method) (input : Bytes) : Except CallFault (List AbiValue) :=
  if input.length < 4 then .error .tooShort else values m.layout (input.drop 4)

/-- The first argument, which names the platform transaction that the call completes. -/
def platformTxHash (m : Method) (input : Bytes) : Except CallFault String := do
  stringField (← arguments m input) 0

/-- What a cross-out call names. -/
structure CrossOut where
  /-- The platform address that the deposit is for. -/
  recipient : String
  amount : U256
  /-- The token's contract; zero for the native coin. -/
  token : Address
  deriving DecidableEq

/-- The arguments of a cross-out call. -/
def crossOut (input : Bytes) : Except CallFault CrossOut := do
  let vs ← arguments .crossOut input
  return ⟨← stringField vs 0, ← uintField vs 1, ← addressField vs 2⟩

/-- What the bridge uses of a manager change. -/
structure ManagerChange where
  /-- The platform transaction that the call completes. -/
  platformTxHash : String
  /-- The members who join. -/
  added : List Address
  /-- The members who leave. -/
  removed : List Address
  deriving DecidableEq

/-- The arguments of a manager change. -/
def managerChange (input : Bytes) : Except CallFault ManagerChange := do
  let vs ← arguments .managerChange input
  return ⟨← stringField vs 0, ← addressesField vs 1, ← addressesField vs 2⟩

/-- The truth value that a view returned. -/
def boolResult (output : Bytes) : Except CallFault Bool := do
  field AbiValue.bool? "bool" (← values [.bool] output) 0

end Call

/-! ## Intents -/

/-- What calldata asks for. -/
inductive Intent where
  | withdrawal (platformTxHash : String)
  | membershipChange (platformTxHash : String)
  | upgradeAuthorization (platformTxHash : String)
  | crossOut
  /-- Nothing that the bridge knows. -/
  | unrecognized
  deriving DecidableEq, Repr

namespace Intent

/-- Whether one of the bridge's methods is called. -/
def isBridgeCall : Intent → Bool
  | unrecognized => false
  | _ => true

/-- The kind of the bridge transaction asked for. -/
def kind? : Intent → Option TxKind
  | withdrawal _ => some .withdrawal
  | membershipChange _ => some .membershipChange
  | upgradeAuthorization _ => some .upgradeAuthorization
  | crossOut => some .deposit
  | unrecognized => none

/-- The platform transaction that the call completes. -/
def platformTxHash? : Intent → Option String
  | withdrawal h | membershipChange h | upgradeAuthorization h => some h
  | crossOut | unrecognized => none

/-- The name of an intent. -/
def name : Intent → String
  | withdrawal _ => "Withdrawal"
  | membershipChange _ => "MembershipChange"
  | upgradeAuthorization _ => "UpgradeAuthorization"
  | crossOut => "CrossOut"
  | unrecognized => "Unrecognized"

/-- The intent of a method and the platform transaction that it names. -/
def ofMethod : Method → String → Intent
  | .withdraw, h => .withdrawal h
  | .managerChange, h => .membershipChange h
  | .upgrade, h => .upgradeAuthorization h
  | .crossOut, _ => .crossOut

end Intent

/-- What calldata asks for. A cross-out is recognised by its selector alone; of any other method the
arguments have to decode. -/
def Signatures.classify (s : Signatures) (input : Bytes) : Intent :=
  match s.methodOf? input with
  | none => .unrecognized
  | some .crossOut => .crossOut
  | some m =>
    match Call.platformTxHash m input with
    | .ok h => .ofMethod m h
    | .error _ => .unrecognized

end EvmBridge
