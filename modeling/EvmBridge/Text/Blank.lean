/-! # Blank characters

The characters that Unicode calls white space, and texts with the blanks at both ends cut off.

* `Blank.contains`: the table.
* `Blank.strip`: a list of characters without its blank ends.
-/

namespace EvmBridge.Blank
set_option autoImplicit false

/-- The white-space characters, as ranges of code points, both ends included. -/
def ranges : List (Nat × Nat) :=
  [(0x9, 0xD), (0x20, 0x20), (0x85, 0x85), (0xA0, 0xA0), (0x1680, 0x1680), (0x2000, 0x200A),
   (0x2028, 0x2029), (0x202F, 0x202F), (0x205F, 0x205F), (0x3000, 0x3000)]

/-- Whether a character is white space. -/
def contains (c : Char) : Bool := ranges.any fun r => r.1 ≤ c.toNat && c.toNat ≤ r.2

/-- The characters between the first and the last that are not blank. -/
def strip (cs : List Char) : List Char :=
  ((cs.dropWhile contains).reverse.dropWhile contains).reverse

end EvmBridge.Blank
