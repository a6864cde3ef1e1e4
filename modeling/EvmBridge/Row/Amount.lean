import EvmBridge.FixedBytes

/-! # Amounts in stored rows

A stored amount is text: `0x` and the hexadecimal digits without leading zeros, one zero for zero.
Reading is wider than writing: the mark may be missing, letters may be of either case, leading zeros
may stand in front, and blanks between the digits are passed over.

* `Amount.text`, `Amount.ofText`: writing and reading.
* `Amount.Fault`: what can be wrong with the text.
-/

namespace EvmBridge.Amount
set_option autoImplicit false

/-! ## Writing -/

/-- The digits of an amount without leading zeros, and one zero for zero. -/
def digits (n : U256) : List Char :=
  match (Hex.digits n.toBytes).dropWhile (· = '0') with
  | [] => ['0']
  | cs => cs

/-- An amount as stored rows write it. -/
def text (n : U256) : String := String.ofList ('0' :: 'x' :: digits n)

/-! ## Reading -/

/-- What is wrong with a stored amount. -/
inductive Fault where
  /-- The digits are none or more than 64. -/
  | wrongLength (found : Nat)
  /-- The byte at a position is neither a digit nor blank. -/
  | badDigit (found : UInt8) (position : Nat)
  deriving DecidableEq, Repr

/-- The wording of a fault. -/
def Fault.message : Fault → String
  | .wrongLength found =>
    "invalid length " ++ toString found ++ ", expected a (both 0x-prefixed or not) hex string " ++
      "or byte array containing between (0; 32] bytes"
  | .badDigit found position =>
    "invalid hex character: " ++ String.ofList [Char.ofNat found.toNat] ++ ", at " ++
      toString position

/-- Whether a byte is passed over between digits: space, tab, line feed, carriage return. -/
def isBlank (x : UInt8) : Bool := x = 32 || x = 9 || x = 10 || x = 13

/-- The values of the digits of a text that starts at a position. -/
def digitValues : (position : Nat) → Bytes → Except Fault (List Nat)
  | _, [] => .ok []
  | p, x :: rest =>
    match Hex.value? x with
    | some v => (digitValues (p + 1) rest).map (v :: ·)
    | none => if isBlank x then digitValues (p + 1) rest else .error (.badDigit x p)

/-- The number that digits write in base 16. -/
def ofDigits (ds : List Nat) : Nat := ds.foldl (fun n d => n * 16 + d) 0

/-- Digits are taken two by two, the first one alone if the text has an odd length. A last digit
left without a partner, which only blanks can bring about, does not count. -/
def pairedDigits (length : Nat) (ds : List Nat) : List Nat :=
  if ds.length % 2 = length % 2 then ds else ds.dropLast

/-- The amount that a text writes. -/
def ofText (b : Bytes) : Except Fault U256 :=
  let body := Hex.withoutMark b
  if body.isEmpty ∨ 64 < body.length then .error (.wrongLength body.length)
  else (digitValues (b.length - body.length) body).map fun ds =>
    BitVec.ofNat 256 (ofDigits (pairedDigits body.length ds))

end EvmBridge.Amount
