import Mathlib.Order.FixedPoints
import Mathlib.Order.CompletePartialOrder
import SchemaGrammar.Proofs.Schema.Values

set_option autoImplicit false

/-! # The built-in rule for numbers

The rule for numbers takes JSON numbers with few enough digits in each part, but it reads an exponent
like a whole part: no zero may come first where more digits follow (`builtin_number`). What stands
before an exponent and what belongs to it can be told apart in any text
(`append_mem_cappedNumber`), so whether a text is such a number depends on both apart. -/

namespace SchemaGrammar

open Computability

open Grammar (charWhere)
open IntRange (AreDigits digitsBetween digitsOf fromTo numerals)
open Standard (IsDigit digits someDigits natural)

/-! ## Digits -/

namespace Standard

theorem mem_digits_iff {ds : List Char} : ds ∈ digits ↔ AreDigits ds := by
  refine ⟨fun h => ?_, fun h => Grammar.mem_kstar_charWhere h⟩
  obtain ⟨pieces, rfl, hpieces⟩ := Language.mem_kstar.1 h
  intro d hd
  obtain ⟨piece, hpiece, hd⟩ := List.mem_flatten.1 hd
  obtain ⟨c, rfl, hc⟩ := hpieces piece hpiece
  rwa [List.mem_singleton.1 hd]

theorem mem_someDigits_iff {ds : List Char} : ds ∈ someDigits ↔ AreDigits ds ∧ ds ≠ [] := by
  constructor
  · intro h
    obtain ⟨front, ⟨d, rfl, hd⟩, back, hback, rfl⟩ := Language.mem_mul.1 h
    exact ⟨IntRange.areDigits_cons.2 ⟨hd, mem_digits_iff.1 hback⟩, by simp⟩
  · rintro ⟨h, hne⟩
    exact mem_someDigits hne h

/-- Digits are a natural unless they start with a zero that more digits follow. -/
theorem mem_natural_iff {ds : List Char} :
    ds ∈ natural ↔ ds ∈ someDigits ∧ (ds.head? = some '0' → ds = ['0']) := by
  constructor
  · intro h
    refine ⟨natural_le_someDigits h, fun hhead => ?_⟩
    rcases h with rfl | h
    · rfl
    · obtain ⟨front, ⟨d, rfl, -, hd⟩, back, -, rfl⟩ := Language.mem_mul.1 h
      exact absurd (Option.some.inj hhead) hd
  · rintro ⟨h, hzero⟩
    obtain ⟨hdigits, hne⟩ := mem_someDigits_iff.1 h
    obtain ⟨d, rest, rfl⟩ := List.exists_cons_of_ne_nil hne
    by_cases hd : d = '0'
    · rw [hzero (by rw [hd]; rfl)]
      exact .inl rfl
    · exact cons_mem_natural hdigits hd

/-- The naturals are the numerals of all numbers. -/
theorem mem_natural_iff_digitsOf {ds : List Char} : ds ∈ natural ↔ ∃ n, ds = digitsOf n := by
  constructor
  · rintro (rfl | h)
    · exact ⟨0, rfl⟩
    · obtain ⟨front, ⟨d, rfl, hdigit, hd⟩, back, hback, rfl⟩ := Language.mem_mul.1 h
      have hdigits : AreDigits (d :: back) := IntRange.areDigits_cons.2 ⟨hdigit, mem_digits_iff.1 hback⟩
      exact ⟨_, IntRange.cons_eq_digitsOf hdigits hd⟩
  · rintro ⟨n, rfl⟩
    exact toDigits_mem_natural n

end Standard

/-! ## The rule -/

namespace Schema

open Builtin (nodes markNode optionalNode classNode digitNode language_markNode language_optionalNode
  language_classNode language_eitherClass)

/-- The most digits that a part of a number may have. -/
def digitCap : Nat := 16

/-- The texts of a language that are no longer than a part of a number may be. -/
def capped (L : Language Char) : Language Char :=
  {text | text ∈ L ∧ text.length ≤ digitCap}

theorem capped_le (L : Language Char) : capped L ≤ L :=
  fun _ h => h.1

theorem capped_someDigits : capped someDigits = digitsBetween 1 digitCap := by
  ext ds
  have hne : ds ≠ [] ↔ 1 ≤ ds.length := List.length_pos_iff.symm
  change ds ∈ someDigits ∧ _ ↔ AreDigits ds ∧ _
  rw [Standard.mem_someDigits_iff, hne, and_assoc]

theorem builtin_decimalPart : builtin "decimal-part" = capped someDigits := by
  rw [builtin_eq rfl rfl, capped_someDigits, ← IntRange.repeated_digit]
  have hrep := Grammar.language_rep nodes digitNode 1 (some digitCap)
  rwa [digitNode, language_classNode] at hrep

theorem builtin_integralPart : builtin "integral-part" = capped natural := by
  have htree : builtin "integral-part" = Grammar.language nodes
      (.alt [classNode '0' '0', .seq [classNode '1' '9', .rep digitNode 0 (some 15)]]) :=
    builtin_eq rfl rfl
  have hrest : Grammar.language nodes (.rep digitNode 0 (some 15)) = digitsBetween 0 15 := by
    have hrep := Grammar.language_rep nodes digitNode 0 (some 15)
    rwa [digitNode, language_classNode, IntRange.repeated_digit] at hrep
  have hpositive := IntRange.leading_mul_digits 0 15
  rw [htree, Grammar.language_alt]
  simp only [List.map_cons, List.map_nil, List.sum_cons, List.sum_nil, add_zero,
    Grammar.language_seq, List.prod_cons, List.prod_nil, mul_one, language_classNode, hrest, hpositive,
    IntRange.fromTo_self]
  -- zero, and the numerals of all other numbers
  ext text
  constructor
  · rintro (rfl | ⟨n, ⟨-, -, hlength⟩, rfl⟩)
    · exact ⟨Standard.mem_natural_iff_digitsOf.2 ⟨0, rfl⟩, by decide⟩
    · exact ⟨Standard.mem_natural_iff_digitsOf.2 ⟨n, rfl⟩, hlength⟩
  · rintro ⟨hnatural, hlength⟩
    obtain ⟨n, rfl⟩ := Standard.mem_natural_iff_digitsOf.1 hnatural
    rcases Nat.eq_zero_or_pos n with rfl | hpos
    · exact .inl rfl
    · exact .inr ⟨n, ⟨hpos, IntRange.length_digitsOf_pos n, hlength⟩, rfl⟩

/-- What stands before the exponent of a number. -/
def magnitude : Language Char :=
  (1 + {['-']}) * capped natural * (1 + {['.']} * capped someDigits)

/-- An exponent, or none. -/
def optionalPower (power : Language Char) : Language Char :=
  1 + ({['e']} + {['E']}) * (1 + ({['+']} + {['-']})) * capped power

/-- Numbers whose parts have few enough digits, with what the digits of an exponent may be. -/
def cappedNumber (power : Language Char) : Language Char :=
  magnitude * optionalPower power

theorem language_integralPart : Grammar.language nodes (.rule "integral-part") = capped natural :=
  (language_rule_builtin (by decide)).trans builtin_integralPart

/-- The rule for integers takes a minus sign in front of any natural, also of zero. -/
theorem builtin_integer : builtin "integer" = (1 + {['-']}) * capped natural * blanks := by
  rw [builtin_eq rfl rfl, Grammar.language_seq]
  simp only [List.map_cons, List.map_nil, List.prod_cons, List.prod_nil, mul_one, language_markNode,
    language_optionalNode, Grammar.language_seq, language_rule_space, language_integralPart]

/-- An integer with few enough digits, as it is written. -/
theorem intText_mem_capped {n : Int} (h : IntRange.width n ≤ digitCap) :
    (intText n).toList ∈ (1 + {['-']}) * capped natural := by
  have hdigits : digitsOf n.natAbs ∈ capped natural :=
    ⟨Standard.mem_natural_iff_digitsOf.2 ⟨_, rfl⟩, h⟩
  unfold intText natText
  by_cases hneg : n < 0
  · rw [if_pos hneg]
    refine Language.mem_mul.2 ⟨['-'], .inr rfl, _, hdigits, ?_⟩
    simp [digitsOf]
  · rw [if_neg hneg]
    refine Language.mem_mul.2 ⟨[], .inl rfl, _, hdigits, ?_⟩
    simp [digitsOf]

theorem builtin_number : builtin "number" = cappedNumber natural * blanks := by
  have hdecimal : Grammar.language nodes (.rule "decimal-part") = capped someDigits :=
    (language_rule_builtin (by decide)).trans builtin_decimalPart
  have hpower : Grammar.language nodes (.charClass false [(101, 101), (69, 69)]) = {['e']} + {['E']} :=
    language_eitherClass nodes 'e' 'E'
  have hsign : Grammar.language nodes (.charClass false [(45, 45), (43, 43)]) = {['+']} + {['-']} := by
    rw [add_comm]
    exact language_eitherClass nodes '-' '+'
  rw [builtin_eq rfl rfl, Grammar.language_seq]
  simp only [List.map_cons, List.map_nil, List.prod_cons, List.prod_nil, mul_one,
    language_markNode, language_optionalNode, Grammar.language_seq, language_rule_space,
    language_integralPart, hdecimal, hpower, hsign, cappedNumber, magnitude, optionalPower, mul_assoc]

/-- Numbers whose parts have few digits are numbers. -/
theorem cappedNumber_le : cappedNumber someDigits ≤ Standard.number := by
  have hwhole : (1 + {['-']}) * capped natural ≤ Standard.integer :=
    mul_le_mul' le_rfl (capped_le natural)
  have hfraction : 1 + {['.']} * capped someDigits ≤ 1 + Standard.fraction :=
    add_le_add le_rfl (mul_le_mul' le_rfl (capped_le someDigits))
  have hpower : optionalPower someDigits ≤ 1 + Standard.exponent :=
    add_le_add le_rfl (mul_le_mul' le_rfl (capped_le someDigits))
  exact mul_le_mul' (mul_le_mul' hwhole hfraction) hpower

/-! ## Taking numbers apart -/

/-- The letters in front of an exponent. -/
def IsPowerMark (c : Char) : Prop :=
  c = 'e' ∨ c = 'E'

/-- The characters of numbers without an exponent. -/
def IsPlainChar (c : Char) : Prop :=
  IsDigit c ∨ c = '-' ∨ c = '.'

theorem not_isPowerMark {c : Char} (h : IsPlainChar c) : ¬ IsPowerMark c := by
  rintro (rfl | rfl)
  · exact absurd h (by unfold IsPlainChar IsDigit; decide)
  · exact absurd h (by unfold IsPlainChar IsDigit; decide)

theorem isPlainChar_of_mem_magnitude {text : List Char} (h : text ∈ magnitude) :
    ∀ c ∈ text, IsPlainChar c := by
  obtain ⟨front, hfront, point, hpoint, rfl⟩ := Language.mem_mul.1 h
  obtain ⟨sign, hsign, whole, hwhole, rfl⟩ := Language.mem_mul.1 hfront
  have hdigits {ds : List Char} (hds : ds ∈ someDigits) : ∀ c ∈ ds, IsPlainChar c :=
    fun c hc => .inl ((Standard.mem_someDigits_iff.1 hds).1 c hc)
  have hsign' : ∀ c ∈ sign, IsPlainChar c := by
    rcases hsign with rfl | rfl
    · simp
    · simp [IsPlainChar]
  have hpoint' : ∀ c ∈ point, IsPlainChar c := by
    rcases hpoint with rfl | hpoint
    · simp
    · obtain ⟨mark, rfl, ds, hds, rfl⟩ := Language.mem_mul.1 hpoint
      refine List.forall_mem_append.2 ⟨by simp [IsPlainChar], hdigits hds.1⟩
  refine List.forall_mem_append.2 ⟨List.forall_mem_append.2 ⟨hsign', ?_⟩, hpoint'⟩
  exact hdigits (Standard.natural_le_someDigits hwhole.1)

theorem isPowerMark_of_mem_optionalPower {P : Language Char} {text : List Char}
    (h : text ∈ optionalPower P) : ∀ c ∈ text.head?, IsPowerMark c := by
  rcases h with rfl | h
  · simp
  · obtain ⟨front, hfront, ds, -, rfl⟩ := Language.mem_mul.1 h
    obtain ⟨mark, hmark, sign, -, rfl⟩ := Language.mem_mul.1 hfront
    rcases hmark with rfl | rfl
    · simp [IsPowerMark]
    · simp [IsPowerMark]

/-- Two texts are split alike at the first exponent mark. -/
theorem eq_of_append_power {front front' back back' : List Char}
    (hfront : ∀ c ∈ front, ¬ IsPowerMark c) (hfront' : ∀ c ∈ front', ¬ IsPowerMark c)
    (hback : ∀ c ∈ back.head?, IsPowerMark c) (hback' : ∀ c ∈ back'.head?, IsPowerMark c)
    (h : front ++ back = front' ++ back') : front = front' ∧ back = back' := by
  rcases List.append_eq_append_iff.1 h with ⟨more, hmore, hsplit⟩ | ⟨more, hmore, hsplit⟩
  · cases more with
    | nil => simp_all
    | cons c rest =>
      exact absurd (hback c (by simp [hsplit])) (hfront' c (by simp [hmore]))
  · cases more with
    | nil => simp_all
    | cons c rest =>
      exact absurd (hback' c (by simp [hsplit])) (hfront c (by simp [hmore]))

theorem append_mem_cappedNumber {P : Language Char} {front back : List Char}
    (hfront : ∀ c ∈ front, ¬ IsPowerMark c) (hback : ∀ c ∈ back.head?, IsPowerMark c) :
    front ++ back ∈ cappedNumber P ↔ front ∈ magnitude ∧ back ∈ optionalPower P := by
  refine ⟨fun h => ?_, fun h => Language.append_mem_mul h.1 h.2⟩
  obtain ⟨front', hmagnitude, back', hpower, heq⟩ := Language.mem_mul.1 h
  obtain ⟨rfl, rfl⟩ := eq_of_append_power
    (fun c hc => not_isPowerMark (isPlainChar_of_mem_magnitude hmagnitude c hc)) hfront
    (isPowerMark_of_mem_optionalPower hpower) hback heq
  exact ⟨hmagnitude, hpower⟩

/-- Behind its mark and its sign, an exponent has its digits. -/
theorem signed_mem_optionalPower {P : Language Char} (hP : P ≤ someDigits) {sign : Char}
    {ds : List Char} (hsign : sign = '+' ∨ sign = '-') :
    'e' :: sign :: ds ∈ optionalPower P ↔ ds ∈ capped P := by
  constructor
  · rintro (h | h)
    · cases h
    · obtain ⟨front, hfront, ds', hds', heq⟩ := Language.mem_mul.1 h
      obtain ⟨mark, hmark, sign', hsign', rfl⟩ := Language.mem_mul.1 hfront
      obtain ⟨c, rfl⟩ : ∃ c, mark = [c] := by
        rcases hmark with rfl | rfl
        · exact ⟨'e', rfl⟩
        · exact ⟨'E', rfl⟩
      rw [List.append_assoc, List.singleton_append] at heq
      have hrest := (List.cons.inj heq).2
      rcases hsign' with rfl | hsign'
      · -- without a sign the digits would start with one
        have hdigits := (Standard.mem_someDigits_iff.1 (hP hds'.1)).1
        have hdigit : sign.isDigit = true := hdigits sign (by rw [← List.nil_append ds', hrest]; simp)
        rcases hsign with rfl | rfl
        · exact absurd hdigit (by decide)
        · exact absurd hdigit (by decide)
      · obtain ⟨d, rfl⟩ : ∃ d, sign' = [d] := by
          rcases hsign' with rfl | rfl
          · exact ⟨'+', rfl⟩
          · exact ⟨'-', rfl⟩
        rw [← (List.cons.inj hrest).2]
        exact hds'
  · intro h
    have hsigned : [sign] ∈ (1 + ({['+']} + {['-']}) : Language Char) := by
      rcases hsign with rfl | rfl
      · exact .inr (.inl rfl)
      · exact .inr (.inr rfl)
    refine .inr (Language.append_mem_mul (a := ['e', sign]) ?_ h)
    exact Language.append_mem_mul (a := ['e']) (.inl rfl) hsigned

end Schema

end SchemaGrammar
