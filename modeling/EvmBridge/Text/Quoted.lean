import EvmBridge.Text.Unprintable

/-! # Quoted text

Text and single characters as a diagnostic shows them: between quotes, with a backslash before the
quote in use and before backslashes, short forms for NUL, tab, carriage return and line feed, and a
number in braces for what would not show.

* `Quoted.text`: a text between double quotes.
* `Quoted.char`: a character between single quotes.
-/

namespace EvmBridge.Quoted
set_option autoImplicit false

/-- The digits of a number in base 16, small letters, no leading zero. -/
def hexDigits (n : Nat) : List Char := Nat.toDigits 16 n

/-- A character inside quotes of the given kind. -/
def escape (quote c : Char) : List Char :=
  if c = quote then ['\\', c]
  else if c = '\\' then ['\\', '\\']
  else if c = '\x00' then ['\\', '0']
  else if c = '\t' then ['\\', 't']
  else if c = '\r' then ['\\', 'r']
  else if c = '\n' then ['\\', 'n']
  else if Unprintable.contains c then
    ['\\', 'u', '\x7b'] ++ hexDigits c.toNat ++ ['\x7d']
  else [c]

/-- A text between double quotes. -/
def text (s : String) : String :=
  String.ofList ('"' :: s.toList.flatMap (escape '"') ++ ['"'])

/-- A character between single quotes. -/
def char (c : Char) : String := String.ofList ('\'' :: escape '\'' c ++ ['\''])

end EvmBridge.Quoted
