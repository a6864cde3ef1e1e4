import EvmBridge.Bytes
import EvmBridge.Text.Quoted
import EvmBridge.Text.Utf8

/-! # Hexadecimal text

* `Hex.encode`: two small digits for each byte.
* `Hex.Fault`: what can be wrong with a hexadecimal text, and `Hex.Fault.message`, its wording.
* `Hex.decode`: the bytes of a text of a given length. An odd length is found first, then a wrong
  length, then the first character that is no digit.
* `Hex.withoutMark`: a text without its leading `0x`.
-/

namespace EvmBridge.Hex
set_option autoImplicit false

/-! ## Writing -/

/-- The digit of a number below sixteen, in small letters. -/
def digit (n : Nat) : Char := if n < 10 then Char.ofNat (48 + n) else Char.ofNat (87 + n)

/-- The two digits of a byte. -/
def pair (x : UInt8) : List Char := [digit (x.toNat / 16), digit (x.toNat % 16)]

/-- The digits of a byte string. -/
def digits (b : Bytes) : List Char := b.flatMap pair

/-- A byte string in hexadecimal. -/
def encode (b : Bytes) : String := String.ofList (digits b)

/-! ## Reading -/

/-- What is wrong with a hexadecimal text. -/
inductive Fault where
  /-- The text has an odd number of bytes. -/
  | oddLength
  /-- The text does not have two digits for each byte asked for. -/
  | wrongLength
  /-- The byte at a position of the text is no hexadecimal digit. -/
  | badDigit (found : UInt8) (position : Nat)
  deriving DecidableEq, Repr

/-- The wording of a fault. A byte that is no digit is shown as the character of that number. -/
def Fault.message : Fault → String
  | .oddLength => "Odd number of digits"
  | .wrongLength => "Invalid string length"
  | .badDigit found position =>
    "Invalid character " ++ Quoted.char (Char.ofNat found.toNat) ++ " at position " ++
      toString position

/-- The value of a hexadecimal digit of either case. -/
def value? (x : UInt8) : Option Nat :=
  let n := x.toNat
  if 48 ≤ n ∧ n ≤ 57 then some (n - 48)
  else if 65 ≤ n ∧ n ≤ 70 then some (n - 55)
  else if 97 ≤ n ∧ n ≤ 102 then some (n - 87)
  else none

/-- The value of the digit at a position. -/
def valueAt (x : UInt8) (position : Nat) : Except Fault Nat :=
  match value? x with
  | some v => .ok v
  | none => .error (.badDigit x position)

/-- The bytes that pairs of digits write, the first pair standing at the given position. -/
def pairs : (position : Nat) → Bytes → Except Fault Bytes
  | p, high :: low :: rest => do
    let h ← valueAt high p
    let l ← valueAt low (p + 1)
    let bs ← pairs (p + 2) rest
    return UInt8.ofNat (h * 16 + l) :: bs
  | _, _ => .ok []

/-- The `n` bytes that the digits of a text write. -/
def decode (n : Nat) (text : Bytes) : Except Fault Bytes :=
  if text.length % 2 ≠ 0 then .error .oddLength
  else if text.length / 2 ≠ n then .error .wrongLength
  else pairs 0 text

theorem length_of_pairs {p : Nat} {text b : Bytes} (h : pairs p text = .ok b) :
    b.length = text.length / 2 := by
  fun_induction pairs p text generalizing b with
  | case1 p high low rest ih =>
    cases hh : valueAt high p with
    | error e => simp [hh, bind, Except.bind] at h
    | ok x => cases hl : valueAt low (p + 1) with
      | error e => simp [hh, hl, bind, Except.bind] at h
      | ok y => cases hr : pairs (p + 2) rest with
        | error e => simp [hh, hl, hr, bind, Except.bind] at h
        | ok bs =>
          simp only [hh, hl, hr, bind, Except.bind, pure, Except.pure, Except.ok.injEq] at h
          subst h
          simp only [List.length_cons, ih hr]
          omega
  | case2 text p hne =>
    cases h
    cases text with
    | nil => rfl
    | cons x rest => cases rest with
      | nil => simp
      | cons y rest => exact (hne x y rest rfl).elim

theorem length_of_decode {n : Nat} {text b : Bytes} (h : decode n text = .ok b) :
    b.length = n := by
  unfold decode at h
  split at h
  · cases h
  split at h
  · cases h
  next hn => rw [length_of_pairs h]; omega

/-- The bytes of a text without its leading `0x`, if it has one. -/
def withoutMark : Bytes → Bytes
  | 48 :: 120 :: rest => rest
  | text => text

/-- The `n` bytes of a text with or without a leading `0x`. -/
def decodeText (n : Nat) (s : String) : Except Fault Bytes :=
  decode n (withoutMark (Utf8.encode s))

end EvmBridge.Hex
