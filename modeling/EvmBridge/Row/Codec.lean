import EvmBridge.BridgeError
import EvmBridge.Row.Amount

/-! # The format of stored rows

Numbers have a fixed width with the least significant byte first, texts and lists are preceded by
their length in eight bytes, an optional value by a byte that is 0 or 1, and a choice by its number
in four bytes. The parts of a row follow each other without anything in between.

* `RowFault`: why a row does not read.
* `Codec α`: how values of a type are written and read; reading gives back the bytes left over.
* `Codec.pair`, `Codec.via`, `Codec.option`, `Codec.list`, …: codecs made of others.
* `Codec.decode`: a whole row; bytes behind the value are not looked at.
-/

namespace EvmBridge
set_option autoImplicit false

/-- Why a stored row does not read. -/
inductive RowFault where
  /-- The row ends too early. -/
  | truncated
  /-- The bytes of a text are not UTF-8. -/
  | notUtf8
  /-- The byte in front of an optional value is neither 0 nor 1. -/
  | optionTag (found : UInt8)
  /-- The byte of a truth value is neither 0 nor 1. -/
  | boolTag (found : UInt8)
  /-- The number of a choice is not below the number of choices. -/
  | choice (found count : Nat)
  /-- The text of an amount does not read. -/
  | amount (fault : Amount.Fault)
  deriving DecidableEq, Repr

namespace RowFault

/-- The wording of a fault. -/
def message : RowFault → String
  | truncated => "io error"
  | notUtf8 => "string is not valid utf8"
  | optionTag found => "tag for enum is not valid, found " ++ toString found.toNat
  | boolTag found =>
    "invalid u8 while decoding bool, expected 0 or 1, found " ++ toString found.toNat
  | choice found count =>
    "invalid value: integer `" ++ toString found ++ "`, expected variant index 0 <= i < " ++
      toString count
  | amount fault => fault.message

/-- The fault as an error of the bridge. -/
def toError (f : RowFault) : BridgeError := .serialization f.message

end RowFault

/-- A reader of the next value of a row. -/
abbrev RowReader (α : Type) := StateT Bytes (Except RowFault) α

/-- How the values of a type are written and read. -/
structure Codec (α : Type) where
  write : α → Bytes
  read : RowReader α

namespace Codec
variable {α β : Type}

/-! ## Reading pieces -/

/-- The next `n` bytes. -/
def next (n : Nat) : RowReader (FixedBytes n) := fun b =>
  if h : n ≤ b.length then .ok (⟨b.take n, by simp [h]⟩, b.drop n) else .error .truncated

/-- The next number of `width` bytes. -/
def nextNat (width : Nat) : RowReader Nat := do return Bytes.toNatLittle (← next width).bytes

/-- `count` values after each other. -/
def nextMany (read : RowReader α) : (count : Nat) → RowReader (List α)
  | 0 => pure []
  | n + 1 => do
    let a ← read
    let as ← nextMany read n
    return a :: as

/-- The next `length` bytes, however many that is. -/
def nextBytes : RowReader Bytes := do
  let length ← nextNat 8
  return (← next length).bytes

/-! ## Codecs -/

/-- A fixed number of bytes, as they are. -/
def fixed (n : Nat) : Codec (FixedBytes n) := ⟨FixedBytes.bytes, next n⟩

/-- One byte. -/
def u8 : Codec UInt8 :=
  ⟨fun n => Bytes.ofNatLittle 1 n.toNat, do return UInt8.ofNat (← nextNat 1)⟩

/-- Four bytes. -/
def u32 : Codec UInt32 :=
  ⟨fun n => Bytes.ofNatLittle 4 n.toNat, do return UInt32.ofNat (← nextNat 4)⟩

/-- Eight bytes. -/
def u64 : Codec UInt64 :=
  ⟨fun n => Bytes.ofNatLittle 8 n.toNat, do return UInt64.ofNat (← nextNat 8)⟩

/-- A truth value in one byte. -/
def bool : Codec Bool where
  write b := [if b then 1 else 0]
  read := do
    match ← u8.read with
    | 0 => return false
    | 1 => return true
    | n => throw (.boolTag n)

/-- The number of one of `count` choices. -/
def choice (count : Nat) : Codec (Fin count) where
  write i := Bytes.ofNatLittle 4 i.val
  read := do
    let n ← nextNat 4
    if h : n < count then return ⟨n, h⟩ else throw (.choice n count)

/-- A text with its length in bytes in front. -/
def text : Codec String where
  write s := Bytes.ofNatLittle 8 (Utf8.encode s).length ++ Utf8.encode s
  read := do
    match Utf8.decode? (← nextBytes) with
    | some s => return s
    | none => throw .notUtf8

/-- An amount, as a text. -/
def amount : Codec U256 where
  write n := text.write (Amount.text n)
  read := do
    match Amount.ofText (Utf8.encode (← text.read)) with
    | .ok n => return n
    | .error e => throw (.amount e)

/-- A value that may be missing. -/
def option (c : Codec α) : Codec (Option α) where
  write
    | none => [0]
    | some a => 1 :: c.write a
  read := do
    match ← u8.read with
    | 0 => return none
    | 1 => return some (← c.read)
    | n => throw (.optionTag n)

/-- A list with its length in front. -/
def list (c : Codec α) : Codec (List α) where
  write as := Bytes.ofNatLittle 8 as.length ++ as.flatMap c.write
  read := do nextMany c.read (← nextNat 8)

/-- Two values after each other. -/
def pair (c : Codec α) (d : Codec β) : Codec (α × β) where
  write p := c.write p.1 ++ d.write p.2
  read := do return (← c.read, ← d.read)

/-- A value written as another one. -/
def via (c : Codec β) (forth : α → β) (back : β → α) : Codec α where
  write a := c.write (forth a)
  read := do return back (← c.read)

/-- The value at the start of a row. -/
def decode (c : Codec α) (b : Bytes) : Except BridgeError α :=
  match c.read.run b with
  | .ok (a, _) => .ok a
  | .error f => .error f.toError

end Codec
end EvmBridge
