import EvmBridge.FixedBytes

/-! # Contract call values

The values that contract calls and events carry, and the types that lay them out.

* `AbiType`, `AbiValue`: the types and values.
* `AbiType.name`: the type as signatures write it.
* `AbiFault`: why bytes do not hold values of given types.
-/

namespace EvmBridge
set_option autoImplicit false

/-- A type of call arguments and event fields. -/
inductive AbiType where
  | string
  | address
  /-- A number of so many bits; it takes a whole word all the same. -/
  | uint (bits : Nat)
  | bool
  | bytes
  | array (element : AbiType)
  deriving DecidableEq

/-- A type as signatures write it. -/
def AbiType.name : AbiType → String
  | string => "string"
  | address => "address"
  | uint bits => "uint" ++ toString bits
  | bool => "bool"
  | bytes => "bytes"
  | array element => element.name ++ "[]"

/-- A value of a call argument or event field. -/
inductive AbiValue where
  | string (s : String)
  | address (a : Address)
  | uint (n : U256)
  | bool (b : Bool)
  | bytes (b : Bytes)
  | array (elements : List AbiValue)
  deriving Inhabited

/-- Why bytes do not hold values of given types. -/
inductive AbiFault where
  /-- There are no bytes at all. -/
  | noData
  /-- A word is missing, or does not hold what its type asks for. -/
  | invalid
  deriving DecidableEq, Repr

/-- The wording of a fault. -/
def AbiFault.message : AbiFault → String
  | noData =>
    "Invalid name: please ensure the contract and method you're calling exist! " ++
      "failed to decode empty bytes. if you're using jsonrpc this is likely due to jsonrpc " ++
      "returning `0x` in case contract or method don't exist"
  | invalid => "Invalid data"

namespace AbiValue

/-- The text of a string. -/
def string? : AbiValue → Option String
  | string s => some s
  | _ => none

/-- The address of an address. -/
def address? : AbiValue → Option Address
  | address a => some a
  | _ => none

/-- The number of a number. -/
def uint? : AbiValue → Option U256
  | uint n => some n
  | _ => none

/-- The truth of a truth value. -/
def bool? : AbiValue → Option Bool
  | bool b => some b
  | _ => none

/-- The addresses of an array of addresses. -/
def addresses? : AbiValue → Option (List Address)
  | array elements => elements.mapM address?
  | _ => none

end AbiValue
end EvmBridge
