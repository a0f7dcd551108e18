set_option autoImplicit false

/-! # Classes of characters given by ranges of code points -/

namespace SchemaGrammar.Text

/-- Inclusive ranges of code points, in ascending order. -/
abbrev Ranges := List (Nat × Nat)

/-- Does a character lie in one of the ranges? The search stops at the first range that starts
    above it, which is sound because the ranges ascend. -/
def Ranges.holds : Ranges → Char → Bool
  | [], _ => false
  | (lo, hi) :: rest, c =>
    if c.toNat < lo then false
    else if c.toNat ≤ hi then true
    else Ranges.holds rest c

end SchemaGrammar.Text
