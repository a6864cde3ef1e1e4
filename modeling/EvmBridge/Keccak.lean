import EvmBridge.FixedBytes

/-! # Keccak-256

The hash that names events and methods: a sponge over 25 lanes of 64 bits with a rate of 136 bytes,
padded with a one bit right after the input and a one bit at the end of the last block.

* `Keccak.permute`: the permutation of 24 rounds.
* `Keccak.hash`: the hash of a byte string.
-/

namespace EvmBridge.Keccak
set_option autoImplicit false

/-- The 25 lanes, lane `(x, y)` at place `x + 5 * y`. -/
abbrev Lanes := List UInt64

/-- A lane by its place. -/
def lane (s : Lanes) (i : Nat) : UInt64 := s.getD i 0

/-- A lane rotated towards its high end. -/
def rotate (w : UInt64) (n : Nat) : UInt64 :=
  if n = 0 then w else (w <<< UInt64.ofNat n) ||| (w >>> UInt64.ofNat (64 - n))

/-- The rotation of each lane, by place. -/
def offsets : List Nat :=
  [0, 1, 62, 28, 27, 36, 44, 6, 55, 20, 3, 10, 43, 25, 39, 41, 45, 15, 21, 8, 18, 2, 61, 56, 14]

/-- The constant of each round, added to the first lane. -/
def roundConstants : List UInt64 :=
  [0x0000000000000001, 0x0000000000008082, 0x800000000000808A, 0x8000000080008000,
   0x000000000000808B, 0x0000000080000001, 0x8000000080008081, 0x8000000000008009,
   0x000000000000008A, 0x0000000000000088, 0x0000000080008009, 0x000000008000000A,
   0x000000008000808B, 0x800000000000008B, 0x8000000000008089, 0x8000000000008003,
   0x8000000000008002, 0x8000000000000080, 0x000000000000800A, 0x800000008000000A,
   0x8000000080008081, 0x8000000000008080, 0x0000000080000001, 0x8000000080008008]

/-- The sum of the five lanes of each column. -/
def columns (s : Lanes) : Lanes :=
  (List.range 5).map fun x =>
    lane s x ^^^ lane s (x + 5) ^^^ lane s (x + 10) ^^^ lane s (x + 15) ^^^ lane s (x + 20)

/-- Every lane with the two columns next to its own added. -/
def mixColumns (s : Lanes) : Lanes :=
  let c := columns s
  let d := (List.range 5).map fun x => lane c ((x + 4) % 5) ^^^ rotate (lane c ((x + 1) % 5)) 1
  (List.range 25).map fun i => lane s i ^^^ lane d (i % 5)

/-- Every lane rotated by its offset and moved: place `(x, y)` takes the lane of place
`(x + 3 * y, x)`. -/
def moveLanes (s : Lanes) : Lanes :=
  (List.range 25).map fun i =>
    let source := (i % 5 + 3 * (i / 5)) % 5 + 5 * (i % 5)
    rotate (lane s source) (offsets.getD source 0)

/-- Every lane combined with the two lanes after it in its row. -/
def mixRows (s : Lanes) : Lanes :=
  (List.range 25).map fun i =>
    let row := 5 * (i / 5)
    lane s i ^^^ (~~~lane s (row + (i + 1) % 5) &&& lane s (row + (i + 2) % 5))

/-- One round with its constant. -/
def round (s : Lanes) (constant : UInt64) : Lanes :=
  match mixRows (moveLanes (mixColumns s)) with
  | [] => []
  | first :: rest => (first ^^^ constant) :: rest

/-- All rounds. -/
def permute (s : Lanes) : Lanes := roundConstants.foldl round s

/-- The number of bytes taken in between two permutations. -/
def rate : Nat := 136

/-- The lanes that a block of bytes writes, least significant byte first. -/
def blockLanes (block : Bytes) : Lanes :=
  (List.range 17).map fun i => UInt64.ofNat (Bytes.toNatLittle ((block.drop (8 * i)).take 8))

/-- A block added to the first lanes of the state. -/
def absorb (s : Lanes) (block : Bytes) : Lanes :=
  let b := blockLanes block
  permute ((List.range 25).map fun i => lane s i ^^^ lane b i)

/-- The bytes that fill the last block. -/
def padding (length : Nat) : Bytes :=
  let missing := rate - length % rate
  if missing = 1 then [0x81] else 0x01 :: Bytes.zeros (missing - 2) ++ [0x80]

/-- The first `count` blocks of a byte string. -/
def blocks : (count : Nat) → Bytes → List Bytes
  | 0, _ => []
  | n + 1, b => b.take rate :: blocks n (b.drop rate)

/-- The Keccak-256 hash of a byte string: the first four lanes after the last block. -/
def hash (b : Bytes) : Hash :=
  let s := (blocks (b.length / rate + 1) (b ++ padding b.length)).foldl absorb
    (List.replicate 25 0)
  FixedBytes.low ((List.range 4).flatMap fun i => Bytes.ofNatLittle 8 (lane s i).toNat)

/-- The hash of a text's UTF-8 bytes. -/
def hashText (s : String) : Hash := hash (Utf8.encode s)

/-- The selector of a method: the first four bytes of the hash of its signature. -/
def selector (signature : String) : Selector := FixedBytes.low ((hashText signature).bytes.take 4)

end EvmBridge.Keccak
