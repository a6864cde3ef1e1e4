/-! # Decimal numbers in settings

`Numeral.unsigned?` reads an unsigned number: an optional plus sign, then one or more decimal
digits, with a value below a bound.
-/

namespace EvmBridge.Numeral
set_option autoImplicit false

/-- The value of a decimal digit. -/
def digit? (c : Char) : Option Nat :=
  if '0'.toNat ≤ c.toNat ∧ c.toNat ≤ '9'.toNat then some (c.toNat - '0'.toNat) else none

/-- The number that decimal digits write after the number `n`. -/
def digits? (n : Nat) : List Char → Option Nat
  | [] => some n
  | c :: cs => (digit? c).bind fun d => digits? (n * 10 + d) cs

/-- The number below `bound` that a text writes: an optional plus sign and at least one digit. -/
def unsigned? (bound : Nat) (s : String) : Option Nat :=
  let cs := match s.toList with
    | '+' :: cs => cs
    | cs => cs
  if cs.isEmpty then none
  else (digits? 0 cs).filter (· < bound)

end EvmBridge.Numeral
