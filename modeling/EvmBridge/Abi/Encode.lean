import EvmBridge.Abi.Value

/-! # Writing call values

Values are written as a head of one word each, followed by a tail. A value of fixed size stands in
the head; for any other the head holds the place in the tail, counted from the start of the head.

* `AbiPart`: what one value adds to head and tail.
* `Abi.assemble`: head and tail of a list of parts.
* `Abi.encode`: the bytes of a list of values.
-/

namespace EvmBridge
set_option autoImplicit false

/-- What a value adds to head and tail. -/
inductive AbiPart where
  /-- A word in the head. -/
  | inline (word : Bytes)
  /-- Bytes in the tail, and their place in the head. -/
  | placed (content : Bytes)
  deriving DecidableEq

namespace Abi

/-- A place, a length or a truth value as a word. It is kept in 32 bits, the low ones of larger
numbers. -/
def word (n : Nat) : Bytes := Bytes.zeros 28 ++ Bytes.ofNat 4 n

/-- Bytes filled up with zeros to whole words. -/
def padded (b : Bytes) : Bytes := b ++ Bytes.zeros ((32 - b.length % 32) % 32)

/-- The head of a list of parts whose tail begins at a place. -/
def heads : (place : Nat) → List AbiPart → Bytes
  | _, [] => []
  | place, .inline w :: parts => w ++ heads place parts
  | place, .placed content :: parts => word place ++ heads (place + content.length) parts

/-- The tail of a list of parts. -/
def tails : List AbiPart → Bytes
  | [] => []
  | .inline _ :: parts => tails parts
  | .placed content :: parts => content ++ tails parts

/-- Head and tail of a list of parts. -/
def assemble (parts : List AbiPart) : Bytes := heads (32 * parts.length) parts ++ tails parts

/-- A length word and the bytes themselves. -/
def counted (b : Bytes) : Bytes := word b.length ++ padded b

mutual

/-- What a value adds to head and tail. The places of an array's elements are counted from behind
the array's length. -/
def part : AbiValue → AbiPart
  | .string s => .placed (counted (Utf8.encode s))
  | .address a => .inline a.word
  | .uint n => .inline n.toBytes
  | .bool b => .inline (word b.toNat)
  | .bytes b => .placed (counted b)
  | .array elements => .placed (word elements.length ++ assemble (partList elements))

/-- What each value of a list adds. -/
def partList : List AbiValue → List AbiPart
  | [] => []
  | v :: vs => part v :: partList vs

end

/-- The bytes of a list of values. -/
def encode (vs : List AbiValue) : Bytes := assemble (partList vs)

/-- The calldata of a method with arguments. -/
def encodeCall (selector : Selector) (vs : List AbiValue) : Bytes := selector.bytes ++ encode vs

end Abi
end EvmBridge
