set_option autoImplicit false

/-! # Hexadecimal digits -/

namespace SchemaGrammar.Text

/-- The digit of a value below sixteen. -/
def hexDigit (upper : Bool) (n : Nat) : Char :=
  if n < 10 then Char.ofNat (0x30 + n)
  else if upper then Char.ofNat (0x41 + (n - 10))
  else Char.ofNat (0x61 + (n - 10))

/-- The last `width` hexadecimal digits of a number, the highest first. -/
def hexDigits (upper : Bool) : Nat → Nat → List Char
  | 0, _ => []
  | width + 1, n => hexDigits upper width (n / 16) ++ [hexDigit upper (n % 16)]

/-- The value of an ASCII digit in bases up to sixteen. -/
def hexValue? (c : Char) : Option Nat :=
  if '0' ≤ c ∧ c ≤ '9' then some (c.toNat - 0x30)
  else if 'a' ≤ c ∧ c ≤ 'f' then some (c.toNat - 0x61 + 10)
  else if 'A' ≤ c ∧ c ≤ 'F' then some (c.toNat - 0x41 + 10)
  else none

def isHexDigit (c : Char) : Bool :=
  (hexValue? c).isSome

end SchemaGrammar.Text
