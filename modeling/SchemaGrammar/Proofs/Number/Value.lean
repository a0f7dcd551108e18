import Mathlib.Algebra.Order.Floor.Ring
import Mathlib.Data.Rat.Floor
import SchemaGrammar.Number.Basic

set_option autoImplicit false

/-! # The exact values of numbers

A finite number is a rational. The whole numbers next to it, which the arithmetic of doubles finds
by dividing naturals, are the floor and the ceiling of this rational (`floor?_eq`, `ceil?_eq`).
Numbers that are not finite have no value here; they count as zero. -/

namespace SchemaGrammar

namespace Double

/-- A finite double as a rational. -/
def rational : Double → ℚ
  | .finite negative m e => (if negative then -1 else 1) * (m * 2 ^ e)
  | _ => 0

variable {x : Double} {num : Int} {den : Nat}

theorem rational_of_ratio? (h : x.ratio? = some (num, den)) : x.rational = num / den := by
  cases x with
  | finite negative m e =>
    have hmagnitude : (m : ℚ) * 2 ^ e =
        ((if 0 ≤ e then m * Nat.pow 2 e.toNat else m : Nat) : ℚ) /
          ((if 0 ≤ e then 1 else Nat.pow 2 (-e).toNat : Nat) : ℚ) := by
      by_cases he : 0 ≤ e
      · obtain ⟨k, rfl⟩ := Int.eq_ofNat_of_zero_le he
        simp
      · -- a negative exponent is a power of two in the denominator
        obtain ⟨k, hk⟩ := Int.eq_ofNat_of_zero_le (Int.neg_nonneg_of_nonpos (Int.le_of_not_le he))
        obtain rfl : e = -(k : Int) := by omega
        rw [if_neg he, if_neg he, zpow_neg, zpow_natCast]
        simp [div_eq_mul_inv]
    obtain ⟨hnum, hden⟩ := Prod.mk.inj (Option.some.inj h)
    rw [rational, hmagnitude, ← hnum, ← hden]
    cases negative with
    | false => simp
    | true => simp [neg_div]
  | _ => exact absurd h (by simp [ratio?])

theorem exists_ratio (h : x.isFinite = true) : ∃ num den, x.ratio? = some (num, den) := by
  cases x with
  | finite negative m e => exact ⟨_, _, rfl⟩
  | _ => exact absurd h (by simp [isFinite])

theorem floor?_eq (h : x.isFinite = true) : x.floor? = some ⌊x.rational⌋ := by
  obtain ⟨num, den, hratio⟩ := exists_ratio h
  rw [floor?, hratio, rational_of_ratio? hratio, Rat.floor_intCast_div_natCast,
    ← Int.fdiv_eq_ediv_of_nonneg num (Int.natCast_nonneg den)]
  rfl

theorem ceil?_eq (h : x.isFinite = true) : x.ceil? = some ⌈x.rational⌉ := by
  obtain ⟨num, den, hratio⟩ := exists_ratio h
  rw [ceil?, hratio, rational_of_ratio? hratio, Rat.ceil_intCast_div_natCast,
    ← Int.fdiv_eq_ediv_of_nonneg (-num) (Int.natCast_nonneg den)]
  rfl

end Double

namespace Number

/-- A finite number as a rational. -/
def rational : Number → ℚ
  | .whole n => n
  | .double x => x.rational

variable {x : Number}

theorem floor?_eq (h : x.isFinite = true) : x.floor? = some ⌊x.rational⌋ := by
  cases x with
  | whole n => simp [floor?, rational]
  | double x => exact Double.floor?_eq h

theorem ceil?_eq (h : x.isFinite = true) : x.ceil? = some ⌈x.rational⌉ := by
  cases x with
  | whole n => simp [ceil?, rational]
  | double x => exact Double.ceil?_eq h

/-- Two and a half below zero lies between the whole numbers minus three and minus two. -/
example : (Number.double (.finite true 5 (-1))).floor? = some (-3) ∧
    (Number.double (.finite true 5 (-1))).ceil? = some (-2) := by
  decide

end Number

end SchemaGrammar
