import EvmBridge.Text.Hex

/-! # Byte strings of a fixed length, and 256-bit words

* `FixedBytes n`: exactly `n` bytes, with `FixedBytes.ofBytes?` for a byte string of that length,
  `FixedBytes.low` for the low-order end of any byte string, and hexadecimal text both ways.
* `Address` (20 bytes), `Hash` (32 bytes), `Selector` (4 bytes).
* `U256`: an amount, and the 32 bytes that write it.
-/

namespace EvmBridge
set_option autoImplicit false

/-- Exactly `n` bytes. -/
@[ext]
structure FixedBytes (n : Nat) where
  bytes : Bytes
  length_bytes : bytes.length = n
  deriving DecidableEq

namespace FixedBytes

/-- A byte string of the right length. -/
def ofBytes? {n : Nat} (b : Bytes) : Option (FixedBytes n) :=
  if h : b.length = n then some ⟨b, h⟩ else none

/-- The last `n` bytes, with zero bytes in front where there are fewer. -/
def low {n : Nat} (b : Bytes) : FixedBytes n :=
  ⟨Bytes.zeros (n - b.length) ++ b.drop (b.length - n), by simp; omega⟩

/-- `n` zero bytes. -/
def zero {n : Nat} : FixedBytes n := ⟨Bytes.zeros n, by simp⟩

instance {n : Nat} : Inhabited (FixedBytes n) := ⟨zero⟩

/-- Whether all bytes are zero. -/
def isZero {n : Nat} (a : FixedBytes n) : Bool := a = zero

/-- `n` equal bytes. -/
def fill {n : Nat} (x : UInt8) : FixedBytes n := ⟨List.replicate n x, by simp⟩

/-- The 32 bytes that hold these bytes at their low-order end. -/
def word {n : Nat} (a : FixedBytes n) : Bytes := Bytes.zeros (32 - n) ++ a.bytes

/-- The bytes in hexadecimal behind `0x`. -/
def text {n : Nat} (a : FixedBytes n) : String := "0x" ++ Hex.encode a.bytes

/-- The bytes that a hexadecimal text writes, with or without `0x` in front. -/
def ofText {n : Nat} (s : String) : Except Hex.Fault (FixedBytes n) :=
  match h : Hex.decodeText n s with
  | .ok b => .ok ⟨b, Hex.length_of_decode h⟩
  | .error e => .error e

theorem bytes_inj {n : Nat} {a b : FixedBytes n} (h : a.bytes = b.bytes) : a = b :=
  FixedBytes.ext h

theorem low_bytes {n : Nat} (a : FixedBytes n) : low a.bytes = a := by
  apply bytes_inj
  simp [low, a.length_bytes, Bytes.zeros]

/-- The low-order end of a word gives back what the word was made of. -/
theorem low_word {n : Nat} (h : n ≤ 32) (a : FixedBytes n) : low a.word = a := by
  apply bytes_inj
  have hl := a.length_bytes
  have hd : 32 - n + n - n = 32 - n := by omega
  have hz : n - (32 - n + n) = 0 := by omega
  simp [low, word, hl, hd, hz, Bytes.zeros]

end FixedBytes

/-- The address of an account or contract. -/
abbrev Address := FixedBytes 20

/-- The hash of a block, a transaction or an event signature. -/
abbrev Hash := FixedBytes 32

/-- The first four bytes of calldata, which name the method called. -/
abbrev Selector := FixedBytes 4

/-- A hash cut short for reading: its first four and last two bytes. -/
def Hash.brief (h : Hash) : String :=
  "0x" ++ Hex.encode (h.bytes.take 4) ++ ".." ++ Hex.encode (h.bytes.drop 30)

/-- A 256-bit amount. -/
abbrev U256 := BitVec 256

namespace U256

/-- The amount that a byte string writes, most significant byte first. -/
def ofBytes (b : Bytes) : U256 := BitVec.ofNat 256 (Bytes.toNat b)

/-- The 32 bytes of an amount, most significant first. -/
def toBytes (n : U256) : Bytes := Bytes.ofNat 32 n.toNat

@[simp] theorem length_toBytes (n : U256) : n.toBytes.length = 32 := by simp [toBytes]

end U256
end EvmBridge
