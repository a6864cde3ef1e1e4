import EvmBridge.Abi.Value

/-! # Reading call values

Reading is lenient where nothing is lost by it: bytes after the last value, filling bytes, the high
bytes of an address and the range of a number narrower than a word are not looked at.

* `Abi.wordAt`: the word at a place.
* `Abi.decodeAt`: the value of a type whose head word stands at a place.
* `Abi.decode`: the values of a list of types, whose head words follow each other.
-/

namespace EvmBridge.Abi
set_option autoImplicit false

/-- A stretch of bytes that has to lie inside the data. -/
def slice (data : Bytes) (place length : Nat) : Except AbiFault Bytes :=
  if place + length ≤ data.length then .ok ((data.drop place).take length) else .error .invalid

/-- The word at a place. -/
def wordAt (data : Bytes) (place : Nat) : Except AbiFault Bytes := slice data place 32

/-- The place or length that a word holds: only its last four bytes may be other than zero. -/
def sizeAt (data : Bytes) (place : Nat) : Except AbiFault Nat := do
  let w ← wordAt data place
  if w.take 28 = Bytes.zeros 28 then return Bytes.toNat (w.drop 28) else throw .invalid

/-- The truth value of a word: only its last byte may be other than zero, and only 1 is true. -/
def boolAt (data : Bytes) (place : Nat) : Except AbiFault Bool := do
  let w ← wordAt data place
  if w.take 31 = Bytes.zeros 31 then return Bytes.toNat (w.drop 31) = 1 else throw .invalid

/-- The bytes whose place stands in a head word: their length in a word, then themselves. -/
def countedAt (data : Bytes) (place : Nat) : Except AbiFault Bytes := do
  let start ← sizeAt data place
  let length ← sizeAt data start
  slice data (start + 32) length

/-- `count` values whose head words follow each other from a place on. -/
def collect {α : Type} (read : Nat → Except AbiFault α) :
    (count place : Nat) → Except AbiFault (List α)
  | 0, _ => .ok []
  | n + 1, place => do
    let a ← read place
    let as ← collect read n (place + 32)
    return a :: as

/-- The value of a type whose head word stands at a place. -/
def decodeAt : AbiType → Bytes → Nat → Except AbiFault AbiValue
  | .string, data, place => return .string (Utf8.decodeLossy (← countedAt data place))
  | .address, data, place => return .address (.low (← wordAt data place))
  | .uint _, data, place => return .uint (U256.ofBytes (← wordAt data place))
  | .bool, data, place => return .bool (← boolAt data place)
  | .bytes, data, place => return .bytes (← countedAt data place)
  | .array element, data, place => do
    let start ← sizeAt data place
    let count ← sizeAt data start
    return .array (← collect (decodeAt element (data.drop (start + 32))) count 0)

/-- The values of a list of types whose head words follow each other from a place on. -/
def decodeFrom : List AbiType → Bytes → Nat → Except AbiFault (List AbiValue)
  | [], _, _ => .ok []
  | t :: ts, data, place => do
    let v ← decodeAt t data place
    let vs ← decodeFrom ts data (place + 32)
    return v :: vs

/-- The values of a list of types. No bytes at all are a fault of their own. -/
def decode (ts : List AbiType) (data : Bytes) : Except AbiFault (List AbiValue) :=
  if data.isEmpty ∧ ¬ts.isEmpty then .error .noData else decodeFrom ts data 0

end EvmBridge.Abi
