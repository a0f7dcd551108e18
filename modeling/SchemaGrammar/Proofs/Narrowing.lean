import SchemaGrammar.Proofs.Integers
import SchemaGrammar.Proofs.Numbers

set_option autoImplicit false

/-! # Bounds and the plain integer

The rule for plain integers stops at a cap of digits. The expression for a range has no such cap: it
goes as far as its bounds do, and on an open side as far as the ceiling does. So bounds narrow a schema
for integers exactly as far as the cap goes (`narrows_up_to_cap`); beyond it they widen it
(`bound_beyond_cap`). -/

namespace SchemaGrammar

open IntRange (AreDigits integers width)
open Json (Fields)
open Schema (IsProperBound IsWithinCeiling SatisfiesBounds blanks boundKeys boundsOf capped digitCap
  givesOne keyword lowerKeys upperKeys)

/-! ## Counting digits -/

/-- How many digits a text has. -/
def digitCount (text : List Char) : Nat :=
  text.countP Char.isDigit

theorem digitCount_append (a b : List Char) : digitCount (a ++ b) = digitCount a + digitCount b :=
  List.countP_append

theorem digitCount_of_areDigits {ds : List Char} (h : AreDigits ds) : digitCount ds = ds.length :=
  List.countP_eq_length.2 h

theorem digitCount_blanks {w : List Char} (hw : w ∈ blanks) : digitCount w = 0 := by
  refine List.countP_eq_zero.2 fun c hc => ?_
  simp [Standard.not_isDigit_of_isBlank (Schema.isBlank_of_mem_blanks hw c hc)]

theorem digitCount_intText (n : Int) : digitCount (intText n).toList = width n := by
  have hdigits : digitCount (natText n.natAbs).toList = width n := by
    rw [natText, String.toList_ofList]
    exact digitCount_of_areDigits (IntRange.areDigits_digitsOf _)
  unfold intText
  split_ifs
  · rw [String.toList_append, digitCount_append, hdigits]
    exact Nat.zero_add _
  · exact hdigits

/-- The plain integer has no more digits than the cap. -/
theorem digitCount_of_mem_integer {text : List Char} (h : text ∈ Schema.builtin "integer") :
    digitCount text ≤ digitCap := by
  rw [Schema.builtin_integer] at h
  obtain ⟨front, hfront, w, hw, rfl⟩ := Language.mem_mul.1 h
  obtain ⟨sign, hsign, ds, ⟨hnatural, hlength⟩, rfl⟩ := Language.mem_mul.1 hfront
  have hdigits := (Standard.mem_someDigits_iff.1 (Standard.natural_le_someDigits hnatural)).1
  have hsign : digitCount sign = 0 := by
    rcases hsign with rfl | rfl <;> rfl
  rw [digitCount_append, digitCount_append, hsign, digitCount_of_areDigits hdigits,
    digitCount_blanks hw]
  omega

/-- A numeral with blanks behind it is a plain integer if it has few enough digits. -/
theorem numeral_mem_integer_iff {P : Int → Prop} {text : List Char} (h : text ∈ integers P * blanks) :
    text ∈ Schema.builtin "integer" ↔ digitCount text ≤ digitCap := by
  refine ⟨digitCount_of_mem_integer, fun hcount => ?_⟩
  obtain ⟨numeral, ⟨n, -, rfl⟩, w, hw, rfl⟩ := Language.mem_mul.1 h
  rw [digitCount_append, digitCount_intText, digitCount_blanks hw, add_zero] at hcount
  rw [Schema.builtin_integer]
  exact Language.append_mem_mul (Schema.intText_mem_capped hcount) hw

/-! ## Comparing grammars -/

namespace Grammar

/-- Each text that the first grammar accepts is accepted by the second one. -/
def IsNarrower (g g₀ : Grammar) : Prop :=
  ∀ (order : Order) (text : String) (v v₀ : Verdict), checkIn order g text startRule = .ok v →
    checkIn order g₀ text startRule = .ok v₀ → v.accepted = true → v₀.accepted = true

theorem Accepts.isNarrower_iff {g g₀ : Grammar} {L L₀ : Language Char} (h : g.Accepts L)
    (h₀ : g₀.Accepts L₀) : g.IsNarrower g₀ ↔ ∀ text ∈ L, text ∈ L₀ := by
  constructor
  · intro hnarrower text hmem
    obtain ⟨v, hv, hiff⟩ := h .ascending (String.ofList text)
    obtain ⟨v₀, hv₀, hiff₀⟩ := h₀ .ascending (String.ofList text)
    rw [String.toList_ofList] at hiff hiff₀
    exact hiff₀.1 (hnarrower _ _ v v₀ hv hv₀ (hiff.2 hmem))
  · intro hle order text v v₀ hv hv₀ haccepted
    obtain ⟨w, hw, hiff⟩ := h order text
    obtain ⟨w₀, hw₀, hiff₀⟩ := h₀ order text
    obtain rfl : w = v := Except.ok.inj (hw.symm.trans hv)
    obtain rfl : w₀ = v₀ := Except.ok.inj (hw₀.symm.trans hv₀)
    exact hiff₀.2 (hle _ (hiff.1 haccepted))

end Grammar

/-! ## The grammars -/

namespace Compiler

/-- The schema for plain integers. -/
def anyInteger : Json :=
  .obj (typeFields "integer")

theorem accepts_anyInteger (options : Options) : ∃ t g, compile options anyInteger = .ok t ∧
    Grammar.ofText t.text = .ok g ∧ g.Accepts (Schema.builtin "integer") :=
  accepts_type options (by decide) (by decide +kernel) rfl

section Integers

variable {options : Options} {fields : Fields} {t : RuleTable} {k : Int}
  (h : compile options (.obj fields) = .ok t)

include h

/-- An integer without bounds is a plain one, whatever else its schema says. -/
theorem accepts_unbounded (hasks : AsksForInteger fields)
    (hbounded : boundKeys.any (Fields.has fields) = false) :
    ∃ g, Grammar.ofText t.text = .ok g ∧ g.Accepts (Schema.builtin "integer") := by
  have hshape : Schema.shape fields = .primitive := by
    rw [hasks.shape, if_neg (by simp [hbounded])]
  obtain ⟨resolver, depth, name, s, hrecords, rfl, hrun⟩ := exists_visited h
  simp only [Schema.visitWith, hshape] at hrun
  have hsession : Schema.SoundSession options (.obj fields) True (fun _ => False) (prepared resolver) :=
    soundSession_prepared hrecords
  have hcompiled := Schema.visitPrimitive_compiled hsession hshape hrun
  have hlanguage : Schema.language options (.obj fields) (.obj fields) = Schema.builtin "integer" := by
    rw [Schema.language_eq, Schema.meaningStep, hshape]
    simp [keyword, hasks.type, Json.shown]
  have hroot := hcompiled.rooted rfl rfl
  rw [Schema.start_of_shape (by simp [hshape]), hlanguage] at hroot
  have htable := hcompiled.session.table
  exact htable.complete.accepts (htable.readable trivial) hroot

/-- An integer with bounds is one of those that satisfy them. -/
theorem accepts_bounded (hasks : AsksForInteger fields)
    (hbounded : boundKeys.any (Fields.has fields) = true)
    (hproper : ∀ key ∈ boundKeys, IsProperBound (keyword fields key))
    (hk : options.maxDigits = .whole k) :
    ∃ g, Grammar.ofText t.text = .ok g ∧ g.Accepts (integers (fun n =>
      SatisfiesBounds fields n ∧ IsWithinCeiling (max k.toNat 1) fields n) * blanks) := by
  have hshape : Schema.shape fields = .intRange := by rw [hasks.shape, if_pos hbounded]
  obtain ⟨resolver, depth, name, s, -, rfl, hrun⟩ := exists_visited h
  simp only [Schema.visitWith, hshape] at hrun
  obtain ⟨b, s₁, hfold, hmore⟩ := Work.bind_eq_ok.1 hrun
  obtain ⟨hok, rfl⟩ := Work.ofExcept_eq_ok.1 hfold
  have hbounds : boundsOf fields = .ok b := hok
  obtain ⟨b', hbounds', hcomes⟩ := Schema.exists_boundsOf (Schema.isBound_of_boundsOf hproper hbounds)
  obtain rfl : b = b' := Except.ok.inj (hbounds.symm.trans hbounds')
  cases hexpression : IntRange.expression b.low b.high options.maxDigits with
  | error fault =>
    rw [hexpression] at hmore
    exact absurd hmore Work.throw_ne_ok
  | ok e =>
    rw [hexpression] at hmore
    have hgiven : b.low.isSome = true ∨ b.high.isSome = true := by
      rw [hcomes.low, hcomes.high]
      simpa [givesOne, boundKeys, lowerKeys, upperKeys, or_assoc] using hbounded
    exact accepts_of_root hmore (Schema.writes_group_space (RuleTable.sound_new True).complete
      (writes_bounds .new hk hcomes hgiven hexpression))

/-- **Bounds narrow an integer up to a cap.** Take any schema that asks for an integer and compiles,
    with any bounds and any ceiling of digits. Then its grammar and the one of plain integers can be read,
    and a text that the first one accepts is accepted by the second one exactly if it has no more digits
    than the cap. So the first grammar is narrower if there are no bounds, and otherwise if and only if no
    integer that satisfies them, as far as the ceiling goes, has more digits than the cap. -/
theorem narrows_up_to_cap (hasks : AsksForInteger fields)
    (hproper : ∀ key ∈ boundKeys, IsProperBound (keyword fields key))
    (hk : options.maxDigits = .whole k) :
    ∃ t₀ g g₀, compile options anyInteger = .ok t₀ ∧ Grammar.ofText t.text = .ok g ∧
      Grammar.ofText t₀.text = .ok g₀ ∧
      (∀ (order : Grammar.Order) (text : String), ∃ v v₀,
        Grammar.checkIn order g text Grammar.startRule = .ok v ∧
        Grammar.checkIn order g₀ text Grammar.startRule = .ok v₀ ∧
        (v.accepted = true → (v₀.accepted = true ↔ digitCount text.toList ≤ digitCap))) ∧
      (givesOne fields boundKeys = false → g.IsNarrower g₀) ∧
      (givesOne fields boundKeys = true → (g.IsNarrower g₀ ↔ ∀ n, SatisfiesBounds fields n →
        IsWithinCeiling (max k.toNat 1) fields n → width n ≤ digitCap)) := by
  obtain ⟨t₀, g₀, hcompile₀, hread₀, haccepts₀⟩ := accepts_anyInteger options
  have hverdicts {g : Grammar} {L : Language Char} (haccepts : g.Accepts L)
      (hL : ∀ text ∈ L, text ∈ Schema.builtin "integer" ↔ digitCount text ≤ digitCap)
      (order : Grammar.Order) (text : String) : ∃ v v₀,
        Grammar.checkIn order g text Grammar.startRule = .ok v ∧
        Grammar.checkIn order g₀ text Grammar.startRule = .ok v₀ ∧
        (v.accepted = true → (v₀.accepted = true ↔ digitCount text.toList ≤ digitCap)) := by
    obtain ⟨v, hv, hiff⟩ := haccepts order text
    obtain ⟨v₀, hv₀, hiff₀⟩ := haccepts₀ order text
    exact ⟨v, v₀, hv, hv₀, fun haccepted => hiff₀.trans (hL _ (hiff.1 haccepted))⟩
  cases hbounded : givesOne fields boundKeys with
  | false =>
    -- without bounds both grammars accept the plain integers, which are within the cap
    obtain ⟨g, hread, haccepts⟩ := accepts_unbounded h hasks hbounded
    have hsame (text : List Char) (hmem : text ∈ Schema.builtin "integer") :
        text ∈ Schema.builtin "integer" ↔ digitCount text ≤ digitCap :=
      iff_of_true hmem (digitCount_of_mem_integer hmem)
    exact ⟨t₀, g, g₀, hcompile₀, hread, hread₀, hverdicts haccepts hsame,
      fun _ => (haccepts.isNarrower_iff haccepts₀).2 fun _ hmem => hmem, by simp⟩
  | true =>
    obtain ⟨g, hread, haccepts⟩ := accepts_bounded h hasks hbounded hproper hk
    refine ⟨t₀, g, g₀, hcompile₀, hread, hread₀, hverdicts haccepts fun _ => numeral_mem_integer_iff,
      by simp, fun _ => (haccepts.isNarrower_iff haccepts₀).trans ?_⟩
    constructor
    · -- the numeral of the integer, without blanks, is one of the texts
      intro hle n hn hwithin
      have hmem := hle _ (Language.append_mem_mul ⟨n, ⟨hn, hwithin⟩, rfl⟩ Schema.nil_mem_blanks)
      have hcount := digitCount_of_mem_integer hmem
      rwa [List.append_nil, digitCount_intText] at hcount
    · intro hshort text hmem
      refine (numeral_mem_integer_iff hmem).2 ?_
      obtain ⟨numeral, ⟨n, ⟨hn, hwithin⟩, rfl⟩, w, hw, rfl⟩ := Language.mem_mul.1 hmem
      rw [digitCount_append, digitCount_intText, digitCount_blanks hw, add_zero]
      exact hshort n hn hwithin

end Integers

/-! ## Below and beyond the cap -/

/-- The fields of a schema for an integer between two others. -/
def betweenFields (low high : Int) : Fields :=
  [("type", .str "integer"), ("minimum", .num (.whole low)), ("maximum", .num (.whole high))]

theorem narrows_up_to_cap_upToNinetyNine : ∃ t t₀ g g₀,
    compile .standard (.obj (betweenFields 0 99)) = .ok t ∧ compile .standard anyInteger = .ok t₀ ∧
      Grammar.ofText t.text = .ok g ∧ Grammar.ofText t₀.text = .ok g₀ ∧ g.IsNarrower g₀ := by
  obtain ⟨t, hcompile⟩ : ∃ t, compile .standard (.obj (betweenFields 0 99)) = .ok t :=
    exists_of_isOk (by decide +kernel)
  have hproper : ∀ key ∈ boundKeys, IsProperBound (keyword (betweenFields 0 99) key) := by
    simp [boundKeys, keyword, betweenFields, Fields.get?, Assoc.lookup_cons, IsProperBound]
  obtain ⟨t₀, g, g₀, hcompile₀, hread, hread₀, -, -, hiff⟩ :=
    narrows_up_to_cap hcompile ⟨rfl, by decide⟩ hproper rfl
  refine ⟨t, t₀, g, g₀, hcompile, hcompile₀, hread, hread₀, (hiff rfl).2 fun n hn _ => ?_⟩
  have hlow := hn "minimum" (by decide) (.whole 0) rfl
  have hhigh := hn "maximum" (by decide) (.whole 99) rfl
  have hrange : 0 ≤ n ∧ n ≤ 99 := by
    simp only [Schema.Meets, Number.rational] at hlow hhigh
    exact ⟨by exact_mod_cast hlow, by exact_mod_cast hhigh⟩
  have hshort : width n ≤ 2 := (IntRange.length_digitsOf_le_iff (by decide)).2 (by omega)
  exact hshort.trans (by decide)

/-- The fields of a schema for an integer with at least 17 digits. -/
def farFields : Fields :=
  [("type", .str "integer"), ("minimum", .num (.whole (10 ^ 16)))]

/-- With its least integer behind the cap, a bounded integer is no plain one. -/
theorem bound_beyond_cap : ∃ t t₀ g g₀ v v₀,
    compile .standard (.obj farFields) = .ok t ∧ compile .standard anyInteger = .ok t₀ ∧
      Grammar.ofText t.text = .ok g ∧ Grammar.ofText t₀.text = .ok g₀ ∧
      Grammar.checkIn .ascending g "10000000000000000" Grammar.startRule = .ok v ∧
      Grammar.checkIn .ascending g₀ "10000000000000000" Grammar.startRule = .ok v₀ ∧
      v.accepted = true ∧ v₀.accepted = false := by
  obtain ⟨t, hcompile⟩ : ∃ t, compile .standard (.obj farFields) = .ok t :=
    exists_of_isOk (by decide +kernel)
  have hproper : ∀ key ∈ boundKeys, IsProperBound (keyword farFields key) := by
    simp [boundKeys, keyword, farFields, Fields.get?, Assoc.lookup_cons, IsProperBound]
  have hbounds (n : Int) : SatisfiesBounds farFields n ↔ 10 ^ 16 ≤ n := by
    have hbound : ((10 ^ 16 : Int) : ℚ) ≤ n ↔ 10 ^ 16 ≤ n := Int.cast_le
    simp only [SatisfiesBounds, boundKeys, farFields, Fields.get?]
    simpa [Assoc.lookup_cons, Schema.Meets, Number.rational] using hbound
  obtain ⟨g, hread, haccepts⟩ := accepts_bounded hcompile ⟨rfl, by decide⟩ rfl hproper rfl
  obtain ⟨t₀, g₀, hcompile₀, hread₀, haccepts₀⟩ := accepts_anyInteger .standard
  obtain ⟨v, hv, hiff⟩ := haccepts .ascending "10000000000000000"
  obtain ⟨v₀, hv₀, hiff₀⟩ := haccepts₀ .ascending "10000000000000000"
  refine ⟨t, t₀, g, g₀, v, v₀, hcompile, hcompile₀, hread, hread₀, hv, hv₀, hiff.2 ?_,
    Bool.eq_false_iff.2 fun haccepted => ?_⟩
  · have hleast : IsLeast {k | SatisfiesBounds farFields k} (10 ^ 16) := by
      simp only [hbounds]
      exact isLeast_Ici
    have hwithin : IsWithinCeiling (max (16 : Int).toNat 1) farFields (10 ^ 16) :=
      ⟨fun _ _ => .inr ⟨_, hleast, by decide, le_rfl⟩, fun _ hneg => absurd hneg (by decide)⟩
    exact Language.append_mem_mul (a := "10000000000000000".toList)
      ⟨10 ^ 16, ⟨(hbounds _).2 le_rfl, hwithin⟩, by decide⟩ Schema.nil_mem_blanks
  · exact absurd (digitCount_of_mem_integer (hiff₀.1 haccepted)) (by decide)

end Compiler

end SchemaGrammar
