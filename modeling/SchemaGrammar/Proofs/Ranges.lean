import SchemaGrammar.Proofs.Rules.IntRange
import SchemaGrammar.Proofs.Rules.Verdicts

set_option autoImplicit false

/-! # Grammars of integer ranges

The expression for a range is a grammar by itself, which accepts the numerals of the integers in the
range (`accepts_integers_inRange`). An open side needs a ceiling of digits that can be written: where
numerals have too few digits for it, there is no expression (`farCeiling_is_refused`). -/

namespace SchemaGrammar

namespace IntRange

open Grammar (IsWritable)

/-! ## Ranges that are read -/

section Reading

variable {low high : Option Int} {maxDigits : Int}

/-- **Ranges of integers are exact.** Where a side is given and the sides are in order, there is an
    expression for the range. As the root of a grammar it can be read, and the grammar accepts the
    numerals of the integers in the range, as far as the ceiling of digits goes where a side is open.
    All numbers have as few digits as a numeral may have. -/
theorem accepts_integers_inRange (hgiven : low.isSome = true ∨ high.isSome = true)
    (hle : ∀ l ∈ low, ∀ h ∈ high, l ≤ h) (hlow : ∀ n ∈ low, IsWritable n.natAbs)
    (hhigh : ∀ n ∈ high, IsWritable n.natAbs)
    (hdigits : low = none ∨ high = none → IsWritable maxDigits.toNat) :
    ∃ e g, expression low high (.whole maxDigits) = .ok e ∧
      Grammar.ofText ("root ::= " ++ e) = .ok g ∧
      ∀ (order : Grammar.Order) (text : String),
        ∃ v, Grammar.checkIn order g text Grammar.startRule = .ok v ∧
          (v.accepted = true ↔
            ∃ n, IsInRange (max maxDigits.toNat 1) low high n ∧ text = intText n) := by
  have hfewer : low = none ∨ high = none → IsWritable (maxDigits - 1).toNat := fun hopen =>
    (hdigits hopen).mono (by omega)
  obtain ⟨e, he⟩ := exists_expression_iff.2 ⟨hgiven, hle, hlow, hhigh, hfewer⟩
  have hwrites : RuleTable.blank.Writes e (integers (IsInRange (max maxDigits.toNat 1) low high)) :=
    writes_expression _ he
  obtain ⟨g, hread, haccepts⟩ := hwrites.accepts_alone
  refine ⟨e, g, he, hread, fun order text => ?_⟩
  obtain ⟨v, hv, hiff⟩ := haccepts order text
  exact ⟨v, hv, hiff.trans (exists_congr fun n => and_congr_right fun _ => String.toList_inj)⟩

/-- Eight or less, with at most three digits behind a minus sign. -/
theorem accepts_integers_uptoEight : IsWritable (8 : Int).natAbs ∧ IsWritable (3 : Int).toNat ∧
    ∃ e g, expression none (some 8) (.whole 3) = .ok e ∧
      Grammar.ofText ("root ::= " ++ e) = .ok g ∧
      ∀ (order : Grammar.Order) (text : String),
        ∃ v, Grammar.checkIn order g text Grammar.startRule = .ok v ∧
          (v.accepted = true ↔ ∃ n, IsInRange (max (3 : Int).toNat 1) none (some 8) n ∧
            text = intText n) := by
  have hsmall {n : Nat} (h : n < 10 ^ 1) : IsWritable n :=
    lt_of_lt_of_le h (Nat.pow_le_pow_right (by decide) (by decide))
  have height : IsWritable (8 : Int).natAbs := hsmall (by decide)
  have hthree : IsWritable (3 : Int).toNat := hsmall (by decide)
  exact ⟨height, hthree, accepts_integers_inRange (.inr rfl) (by simp) (by simp)
    (by simpa using height) fun _ => hthree⟩

end Reading

/-! ## A ceiling that is too far -/

/-- A lower bound alone has no expression where the digits behind the first one cannot be counted. -/
theorem expression_from_eq_error {low : Int} {count : Nat} (hlow : IsWritable low.natAbs)
    (h : ¬IsWritable count) :
    expression (some low) none (.whole (count + 1 : Nat)) = .error .tooManyDigits := by
  have hpred : (((count + 1 : Nat) : Int) - 1).toNat = count := by omega
  have hnone : ¬∃ e, expression (some low) none (.whole (count + 1 : Nat)) = .ok e := by
    rw [exists_expression_iff, hpred]
    exact fun hall => h (hall.2.2.2.2 (.inr rfl))
  cases he : expression (some low) none (.whole (count + 1 : Nat)) with
  | ok e => exact absurd ⟨e, he⟩ hnone
  | error fault =>
    obtain hbound | ⟨_, -, hside⟩ := Work.except_bind_eq_error.1 he
    · rw [checkBounds_eq_ok.2 (by simpa using hlow)] at hbound
      cases hbound
    · exact congrArg Except.error (atLeast_eq_error hside)

/-- The first number with more digits than a numeral may have, and one more. -/
def farCeiling : Nat :=
  10 ^ Text.maxNumeralDigits + 1

/-- With such a ceiling there is no expression for the naturals, though five is among them: the
    greatest count of digits has too many digits itself. -/
theorem farCeiling_is_refused :
    expression (some 0) none (.whole farCeiling) = .error .tooManyDigits ∧
      IsInRange (max (farCeiling : Int).toNat 1) (some 0) none 5 := by
  constructor
  · have hzero : IsWritable (0 : Int).natAbs := Nat.pow_pos (by decide)
    exact expression_from_eq_error hzero (lt_irrefl _)
  · have hfive : width 5 = 1 := rfl
    refine ⟨by decide, .inr ?_⟩
    rw [hfive]
    exact le_max_of_le_left (le_max_right _ _)

end IntRange

end SchemaGrammar
