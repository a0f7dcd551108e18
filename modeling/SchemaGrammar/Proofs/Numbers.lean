import SchemaGrammar.Proofs.Documents
import SchemaGrammar.Proofs.Schema.Builders
import SchemaGrammar.Proofs.Schema.Numbers

set_option autoImplicit false

/-! # Numbers

The grammar of a schema for numbers accepts JSON numbers with few enough digits, unless a zero comes
first in an exponent (`accepts_numbers`). Of the numbers that are printed, this is so for those
between the tenth and the fifth power of a tenth (`hundredThousandth_is_refused`). -/

namespace SchemaGrammar

open IntRange (AreDigits)
open Standard (IsDigit someDigits natural)
/-! ## Printed numbers -/

open Schema (IsPowerMark IsPlainChar capped cappedNumber magnitude optionalPower not_isPowerMark)

/-- An exponent as it is printed: with at least two digits, so with a zero in front where it needs
    but one, which is only so for small numbers. -/
inductive IsPrintedPower : List Char → Prop where
  | none : IsPrintedPower []
  | up {ds : List Char} (digits : AreDigits ds) (lead : ds.head? ≠ some '0') :
      IsPrintedPower ('e' :: '+' :: ds)
  | down {ds : List Char} (digits : AreDigits ds) (length : 2 ≤ ds.length) :
      IsPrintedPower ('e' :: '-' :: ds)

namespace Double

theorem positional_isPlain {ds : List Char} (h : AreDigits ds) (point : Int) :
    ∀ c ∈ positional ds point, IsPlainChar c := by
  have hdigits {cs : List Char} (hcs : ∀ c ∈ cs, c.isDigit = true) : ∀ c ∈ cs, IsPlainChar c :=
    fun c hc => .inl (hcs c hc)
  have hzeros (count : Nat) : ∀ c ∈ List.replicate count '0', IsPlainChar c :=
    hdigits fun c hc => isDigit_of_mem_zeros hc
  have hpoint : IsPlainChar '.' := .inr (.inr rfl)
  have hzero : IsPlainChar '0' := .inl rfl
  unfold positional
  split_ifs
  · refine List.forall_mem_cons.2 ⟨hzero, List.forall_mem_cons.2 ⟨hpoint, ?_⟩⟩
    exact List.forall_mem_append.2 ⟨hzeros _, hdigits h⟩
  · refine List.forall_mem_append.2 ⟨fun c hc => hdigits h c (List.mem_of_mem_take hc), ?_⟩
    refine List.forall_mem_cons.2 ⟨hpoint, fun c hc => hdigits h c (List.mem_of_mem_drop hc)⟩
  · refine List.forall_mem_append.2 ⟨List.forall_mem_append.2 ⟨hdigits h, hzeros _⟩, ?_⟩
    simp [hpoint, hzero]

theorem scientific_split {ds : List Char} (h : AreDigits ds) {point : Int}
    (hpoint : ¬ (-4 < point ∧ point ≤ 16)) :
    ∃ front back, scientific ds point = front ++ back ∧ (∀ c ∈ front, IsPlainChar c) ∧
      IsPrintedPower back := by
  unfold scientific
  extract_lets power size size' mantissa
  refine ⟨mantissa, _, rfl, ?_, ?_⟩
  · have hmark : IsPlainChar '.' := .inr (.inr rfl)
    have hzero : IsPlainChar '0' := .inl rfl
    have hdigits : ∀ c ∈ ds, IsPlainChar c := fun c hc => .inl (h c hc)
    unfold mantissa
    split
    · simpa using hzero
    · exact hdigits
    · simpa [hmark] using hdigits
  · have hsize : AreDigits size := fun c hc => Text.isDigit_of_mem_toDigits hc
    have hsize' : AreDigits size' := by
      unfold size'
      split_ifs
      · exact IntRange.areDigits_cons.2 ⟨rfl, hsize⟩
      · exact hsize
    have hlength : 0 < size.length := Nat.length_toDigits_pos
    by_cases hneg : power < 0
    · rw [if_pos hneg]
      refine .down hsize' ?_
      unfold size'
      split_ifs with hshort
      · exact Nat.succ_le_succ hlength
      · exact Nat.le_of_not_lt hshort
    · -- an exponent that is not negative is that of a number with more than sixteen digits
      rw [if_neg hneg]
      have hlarge : 16 ≤ power.natAbs := by omega
      have hlong : ¬ size.length < 2 := by
        intro hshort
        have hlt := (Nat.length_toDigits_le_iff (b := 10) (k := 1) (by decide) (by decide)).1
          (Nat.le_of_lt_succ hshort)
        omega
      obtain ⟨d, rest, hd, hne⟩ := Text.head_toDigits (Nat.lt_of_lt_of_le (by decide) hlarge)
      have hlead : size'.head? ≠ some '0' := by
        have hsame : size' = size := if_neg hlong
        rw [hsame]
        change (Nat.toDigits 10 power.natAbs).head? ≠ some '0'
        rw [hd]
        simpa using hne
      exact .up hsize' hlead

theorem magnitudeText_split (m : Nat) (e : Int) :
    ∃ front back, magnitudeText m e = front ++ back ∧ (∀ c ∈ front, IsPlainChar c) ∧
      IsPrintedPower back := by
  have hplain {text : List Char} (h : ∀ c ∈ text, IsPlainChar c) :
      ∃ front back, text = front ++ back ∧ (∀ c ∈ front, IsPlainChar c) ∧ IsPrintedPower back :=
    ⟨text, [], by simp, h, .none⟩
  unfold magnitudeText
  split_ifs with hm
  · refine hplain ?_
    simp [IsPlainChar, IsDigit]
  · extract_lets c all point ds
    have hds : AreDigits ds := by
      intro d hd
      have hmem := (List.dropWhile_sublist _).mem (List.mem_reverse.1 hd)
      exact Text.isDigit_of_mem_toDigits (List.mem_reverse.1 hmem)
    split_ifs with hpoint
    · exact hplain (positional_isPlain hds point)
    · exact scientific_split hds (by simpa using hpoint)

end Double

/-- A printed number is split at its exponent. -/
theorem numberText_split {x : Number} (h : x.isFinite = true) :
    ∃ front back, (Json.numberText x).toList = front ++ back ∧ (∀ c ∈ front, IsPlainChar c) ∧
      IsPrintedPower back := by
  have hminus : IsPlainChar '-' := .inr (.inl rfl)
  cases x with
  | whole n =>
    refine ⟨_, [], (List.append_nil _).symm, ?_, .none⟩
    have hdigits : ∀ c ∈ Nat.toDigits 10 n.natAbs, IsPlainChar c :=
      fun c hc => .inl (Text.isDigit_of_mem_toDigits hc)
    have htext : Json.numberText (.whole n) = intText n := rfl
    rw [htext]
    unfold intText natText
    split_ifs
    · simpa [hminus] using hdigits
    · simpa using hdigits
  | double x =>
    cases x with
    | finite negative m e =>
      obtain ⟨front, back, htext, hfront, hback⟩ := Double.magnitudeText_split m e
      refine ⟨(if negative then ['-'] else []) ++ front, back, ?_, ?_, hback⟩
      · unfold Json.numberText Double.text Double.signed
        cases negative <;> simp [htext]
      · refine List.forall_mem_append.2 ⟨?_, hfront⟩
        cases negative
        · simp
        · simpa using hminus
    | nan => cases h
    | infinite negative => cases h

/-- A small number has the end of its mark and sign where its exponent starts. -/
theorem infix_power_iff {front ds : List Char} {sign : Char} (hfront : ∀ c ∈ front, IsPlainChar c)
    (hds : AreDigits ds) (hsign : sign ≠ 'e') :
    ['e', '-', '0'] <:+: front ++ 'e' :: sign :: ds ↔ sign = '-' ∧ ds.head? = some '0' := by
  constructor
  · rintro ⟨before, behind, heq⟩
    rw [List.append_assoc] at heq
    rcases List.append_eq_append_iff.1 heq with ⟨more, hmore, hsplit⟩ | ⟨more, hmore, hsplit⟩
    · cases more with
      | nil =>
        obtain ⟨rfl, rfl⟩ := List.cons.inj (List.cons.inj hsplit).2
        exact ⟨rfl, rfl⟩
      | cons c rest =>
        obtain ⟨rfl, -⟩ := List.cons.inj hsplit
        exact absurd (.inl rfl) (not_isPowerMark (hfront 'e' (by simp [hmore])))
    · cases more with
      | nil =>
        obtain ⟨rfl, rfl⟩ := List.cons.inj (List.cons.inj hsplit).2
        exact ⟨rfl, rfl⟩
      | cons c rest =>
        -- there is no second mark among the digits
        have hmem : 'e' ∈ sign :: ds := by
          rw [(List.cons.inj hsplit).2]
          simp
        rcases List.mem_cons.1 hmem with rfl | hmem
        · exact absurd rfl hsign
        · exact absurd (hds 'e' hmem) (by decide)
  · rintro ⟨rfl, hhead⟩
    obtain ⟨rest, rfl⟩ : ∃ rest, ds = '0' :: rest := by
      cases ds with
      | nil => cases hhead
      | cons d rest => exact ⟨rest, by rw [Option.some.inj hhead]⟩
    exact ⟨front, rest, by simp⟩

/-- A printed number with few enough digits is read unless a zero comes first in its exponent. -/
theorem printed_mem_iff {x : Number} (h : x.isFinite = true)
    (hcapped : (Json.numberText x).toList ∈ cappedNumber someDigits) :
    (Json.numberText x).toList ∈ cappedNumber natural ↔
      ¬ ['e', '-', '0'] <:+: (Json.numberText x).toList := by
  obtain ⟨front, back, htext, hfront, hback⟩ := numberText_split h
  have hmarks : ∀ c ∈ front, ¬ IsPowerMark c := fun c hc => not_isPowerMark (hfront c hc)
  rw [htext] at hcapped ⊢
  cases hback with
  | none =>
    have hnone : ¬ ['e', '-', '0'] <:+: front ++ [] := by
      intro hinfix
      have hmem : 'e' ∈ front := by simpa using hinfix.mem (List.mem_cons_self : 'e' ∈ ['e', '-', '0'])
      exact hmarks 'e' hmem (.inl rfl)
    rw [Schema.append_mem_cappedNumber hmarks (by simp)] at hcapped ⊢
    exact ⟨fun _ => hnone, fun _ => ⟨hcapped.1, .inl rfl⟩⟩
  | @up ds digits lead =>
    have hhead : ∀ c ∈ ('e' :: '+' :: ds).head?, IsPowerMark c := by simp [IsPowerMark]
    rw [Schema.append_mem_cappedNumber hmarks hhead,
      Schema.signed_mem_optionalPower Standard.natural_le_someDigits (.inl rfl),
      infix_power_iff hfront digits (by decide)]
    rw [Schema.append_mem_cappedNumber hmarks hhead,
      Schema.signed_mem_optionalPower le_rfl (.inl rfl)] at hcapped
    obtain ⟨hmagnitude, hdigits, hlength⟩ := hcapped
    have hnatural := Standard.mem_natural_iff.2 ⟨hdigits, fun hzero => absurd hzero lead⟩
    exact ⟨fun _ hdown => absurd hdown.1 (by decide), fun _ => ⟨hmagnitude, hnatural, hlength⟩⟩
  | @down ds digits length =>
    have hhead : ∀ c ∈ ('e' :: '-' :: ds).head?, IsPowerMark c := by simp [IsPowerMark]
    rw [Schema.append_mem_cappedNumber hmarks hhead,
      Schema.signed_mem_optionalPower Standard.natural_le_someDigits (.inr rfl),
      infix_power_iff hfront digits (by decide)]
    rw [Schema.append_mem_cappedNumber hmarks hhead,
      Schema.signed_mem_optionalPower le_rfl (.inr rfl)] at hcapped
    obtain ⟨hmagnitude, hdigits, hlength⟩ := hcapped
    constructor
    · rintro ⟨-, hnatural, -⟩ ⟨-, hzero⟩
      have hone := (Standard.mem_natural_iff.1 hnatural).2 hzero
      simp [hone] at length
    · intro hlead
      have hnatural := Standard.mem_natural_iff.2 ⟨hdigits, fun hzero => absurd ⟨rfl, hzero⟩ hlead⟩
      exact ⟨hmagnitude, hnatural, hlength⟩

/-! ## The schema -/

namespace Compiler

/-- The fields of a schema that is nothing but a type. -/
def typeFields (name : String) : Json.Fields :=
  [("type", .str name)]

/-- A schema that is nothing but a type with a built-in rule has this rule as its grammar. -/
theorem accepts_type (options : Options) {type : String}
    (hshape : Schema.shape (typeFields type) = .primitive)
    (hran : Work.result? (Schema.visitPrimitive ⟨typeFields type, "", Schema.ruleNameFor ""⟩
      (Session.new [.obj (typeFields type)])) = some "root")
    (hschema : Metaschema.IsSchema (.obj (typeFields type))) :
    ∃ t g, compile options (.obj (typeFields type)) = .ok t ∧ Grammar.ofText t.text = .ok g ∧
      g.Accepts (Schema.builtin type) := by
  obtain ⟨s, hrun⟩ := Work.exists_of_result? hran
  have hbuilder (depth : Nat) :
      Schema.visitWith (Schema.visit options depth) options (.obj (typeFields type)) "" =
        Schema.visitPrimitive ⟨typeFields type, "", Schema.ruleNameFor ""⟩ := by
    simp only [Schema.visitWith, hshape]
  have hcompiled := Schema.visitPrimitive_compiled (soundSession_new options _ True) hshape hrun
  have hlanguage : Schema.language options (.obj (typeFields type)) (.obj (typeFields type)) =
      Schema.builtin type := by
    rw [Schema.language_eq, Schema.meaningStep, hshape]
    rfl
  rw [← hlanguage]
  exact accepts_of_compiled (Metaschema.checkIn_of_isSchema options.dialects rfl rfl hschema) rfl
    hbuilder hrun hcompiled (Schema.start_of_shape (by simp [hshape]))

/-- A schema for numbers. -/
def anyNumber : Json :=
  .obj (typeFields "number")

theorem accepts_anyNumber (options : Options) : ∃ t g, compile options anyNumber = .ok t ∧
    Grammar.ofText t.text = .ok g ∧ g.Accepts (cappedNumber natural * Schema.blanks) := by
  rw [← Schema.builtin_number]
  exact accepts_type options (by decide) (by decide +kernel) rfl

/-- A text without blanks has none at its end. -/
theorem mem_mul_blanks_iff {L : Language Char} {text : List Char}
    (h : ∀ c ∈ text, ¬ Standard.IsBlank c) : text ∈ L * Schema.blanks ↔ text ∈ L := by
  constructor
  · intro hmem
    obtain ⟨front, hfront, w, hw, rfl⟩ := Language.mem_mul.1 hmem
    cases w with
    | nil => rwa [List.append_nil]
    | cons c rest =>
      exact absurd (Schema.isBlank_of_mem_blanks hw c (by simp)) (h c (by simp))
  · intro hmem
    simpa using Language.append_mem_mul hmem Schema.nil_mem_blanks

theorem not_isBlank_of_mem_numberText {x : Number} (h : x.isFinite = true) :
    ∀ c ∈ (Json.numberText x).toList, ¬ Standard.IsBlank c := by
  obtain ⟨front, back, htext, hfront, hback⟩ := numberText_split h
  have hdigit {c : Char} (hc : c.isDigit = true) : ¬ Standard.IsBlank c := by
    intro hblank
    rw [Standard.not_isDigit_of_isBlank hblank] at hc
    cases hc
  have hmark : ∀ c ∈ ['-', '+', '.', 'e'], ¬ Standard.IsBlank c := by
    unfold Standard.IsBlank
    decide
  rw [htext]
  refine List.forall_mem_append.2 ⟨fun c hc => ?_, ?_⟩
  · rcases hfront c hc with hc | rfl | rfl
    · exact hdigit hc
    · exact hmark _ (by decide)
    · exact hmark _ (by decide)
  · cases hback with
    | none => simp
    | up digits _ =>
      refine List.forall_mem_cons.2 ⟨hmark _ (by decide), ?_⟩
      refine List.forall_mem_cons.2 ⟨hmark _ (by decide), ?_⟩
      exact fun c hc => hdigit (digits c hc)
    | down digits _ =>
      refine List.forall_mem_cons.2 ⟨hmark _ (by decide), ?_⟩
      refine List.forall_mem_cons.2 ⟨hmark _ (by decide), ?_⟩
      exact fun c hc => hdigit (digits c hc)

/-- **Numbers are read up to their caps.** The grammar of a schema for numbers accepts the numbers
    whose parts have few enough digits, with blanks behind them, as long as no exponent starts with a
    zero that more digits follow. So of the finite numbers with few enough digits it accepts in print
    those whose exponent is not padded; a small number has a zero in front of its exponent's digit. -/
theorem accepts_numbers (options : Options) : ∃ t g, compile options anyNumber = .ok t ∧
    Grammar.ofText t.text = .ok g ∧
    (∀ (order : Grammar.Order) (text : String),
      ∃ v, Grammar.checkIn order g text Grammar.startRule = .ok v ∧
        (v.accepted = true ↔ text.toList ∈ cappedNumber natural * Schema.blanks)) ∧
    ∀ (order : Grammar.Order) (x : Number), x.isFinite = true →
      (Json.numberText x).toList ∈ cappedNumber someDigits →
        ∃ v, Grammar.checkIn order g (Json.numberText x) Grammar.startRule = .ok v ∧
          (v.accepted = true ↔ ¬ ['e', '-', '0'] <:+: (Json.numberText x).toList) := by
  obtain ⟨t, g, hcompile, hread, haccepts⟩ := accepts_anyNumber options
  refine ⟨t, g, hcompile, hread, haccepts, fun order x hfinite hcapped => ?_⟩
  obtain ⟨v, hv, hiff⟩ := haccepts order (Json.numberText x)
  refine ⟨v, hv, hiff.trans ?_⟩
  rw [mem_mul_blanks_iff (not_isBlank_of_mem_numberText hfinite)]
  exact printed_mem_iff hfinite hcapped

/-- The double next to ten to the power of minus five. -/
def hundredThousandth : Double :=
  .finite false 5902958103587057 (-69)

/-- Its text is a number with few digits, and it is refused. -/
theorem hundredThousandth_is_refused :
    Json.numberText (.double hundredThousandth) = "1e-05" ∧
    "1e-05".toList ∈ cappedNumber someDigits ∧ "1e-05".toList ∈ Standard.number ∧
    ∃ t g v, compile .standard anyNumber = .ok t ∧ Grammar.ofText t.text = .ok g ∧
      Grammar.checkIn .ascending g "1e-05" Grammar.startRule = .ok v ∧ v.accepted = false := by
  have htext : Json.numberText (.double hundredThousandth) = "1e-05" := by decide +kernel
  have hone : ['1'] ∈ magnitude := by
    refine Language.append_mem_mul (a := ['1']) ?_ (.inl rfl)
    refine Language.append_mem_mul (a := []) (.inl rfl) ⟨?_, by decide⟩
    exact Standard.mem_natural_iff_digitsOf.2 ⟨1, rfl⟩
  have hdigits : AreDigits ['0', '5'] := by unfold AreDigits; decide
  have hpower : ['e', '-', '0', '5'] ∈ optionalPower someDigits :=
    (Schema.signed_mem_optionalPower le_rfl (.inr rfl)).2
      ⟨Standard.mem_someDigits_iff.2 ⟨hdigits, by simp⟩, by decide⟩
  have hcapped : "1e-05".toList ∈ cappedNumber someDigits :=
    Language.append_mem_mul (a := ['1']) hone hpower
  refine ⟨htext, hcapped, Schema.cappedNumber_le hcapped, ?_⟩
  obtain ⟨t, g, hcompile, hread, haccepts⟩ := accepts_anyNumber .standard
  obtain ⟨v, hv, hiff⟩ := haccepts .ascending "1e-05"
  refine ⟨t, g, v, hcompile, hread, hv, Bool.eq_false_iff.2 fun haccepted => ?_⟩
  have hmem := hiff.1 haccepted
  rw [← htext] at hmem hcapped
  rw [mem_mul_blanks_iff (not_isBlank_of_mem_numberText rfl), printed_mem_iff rfl hcapped, htext] at hmem
  exact hmem (by decide)

end Compiler

end SchemaGrammar
