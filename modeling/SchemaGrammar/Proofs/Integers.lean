import SchemaGrammar.Proofs.Documents
import SchemaGrammar.Proofs.Ranges
import SchemaGrammar.Proofs.Schema.IntegerBounds
import SchemaGrammar.Proofs.Schema.Language

set_option autoImplicit false

/-! # Bounded integers

A schema that is nothing but an integer with bounds compiles unless both sides are bounded and no
integer satisfies all bounds. Its grammar accepts the numerals of the integers that do, with blanks
behind them, as far as the ceiling of digits goes where a side is open (`accepts_bounded_integers`).
All comparisons are those of the exact values, so it does not matter whether a bound is written as a
whole number or as a double. -/

namespace SchemaGrammar

open Grammar (IsWritable)
open Json (Fields)
open Schema (Bounds IsBound ComesTo SatisfiesBounds IsWithinCeiling boundKeys boundsOf
  givesOne lowerKeys upperKeys)

/-- The fields of a schema for an integer with bounds. -/
structure IsBoundedInteger (fields : Fields) : Prop where
  type : Fields.get? fields "type" = some (.str "integer")
  bounded : boundKeys.any (Fields.has fields) = true
  only : ∀ key v, (key, v) ∈ fields →
    key = "type" ∧ v = .str "integer" ∨ key ∈ boundKeys ∧ IsBound v

/-- The fields of a schema that asks for an integer: none of the keywords that count more than its
    type is there. -/
structure AsksForInteger (fields : Fields) : Prop where
  type : Fields.get? fields "type" = some (.str "integer")
  plain : ∀ key ∈ ["$ref", "oneOf", "anyOf", "const", "enum"], Fields.get? fields key = none

theorem AsksForInteger.shape {fields : Fields} (h : AsksForInteger fields) : Schema.shape fields =
    if boundKeys.any (Fields.has fields) then .intRange else .primitive := by
  have href := h.plain "$ref" (by decide)
  have hone := h.plain "oneOf" (by decide)
  have hany := h.plain "anyOf" (by decide)
  have hconst := h.plain "const" (by decide)
  have henum := h.plain "enum" (by decide)
  -- the type rules all other kinds out
  have hallows (name : String) : Schema.allowsType fields name = (name == "integer") := by
    simp [Schema.allowsType, Schema.given?, h.type, Json.isText]
  have hhas (name : String) : Schema.hasType fields name = (name == "integer") := by
    simp [Schema.hasType, Schema.given?, h.type, Json.isText]
  have hsome : fields.isEmpty = false := by
    cases fields with
    | nil => cases h.type
    | cons _ _ => rfl
  unfold Schema.shape
  simp only [hallows, hhas]
  simp [Fields.has, Schema.given?, Schema.isList, Schema.isPrimitive, h.type, href, hone, hany, hconst,
    henum, hsome, Builtin.typeNames]

/-- The expression that some bounds come to is the one of the integers that satisfy them. -/
theorem writes_bounds {fields : Fields} {options : Options} {k : Int} {b : Bounds} {e : String}
    (t : RuleTable) (hk : options.maxDigits = .whole k) (hcomes : ComesTo fields b)
    (hgiven : b.low.isSome = true ∨ b.high.isSome = true)
    (he : IntRange.expression b.low b.high options.maxDigits = .ok e) :
    t.Writes e (IntRange.integers fun n =>
      SatisfiesBounds fields n ∧ IsWithinCeiling (max k.toNat 1) fields n) := by
  simp only [← hcomes.isInRange_iff (le_max_right _ _) hgiven]
  exact IntRange.writes_expression t (hk ▸ he)

namespace IsBoundedInteger

variable {fields : Fields} (h : IsBoundedInteger fields)

include h

theorem get?_eq_none (key : String) (htype : key ≠ "type") (hkey : key ∉ boundKeys) :
    Fields.get? fields key = none := by
  cases hget : Fields.get? fields key with
  | none => rfl
  | some v =>
    rcases h.only key v (Assoc.mem_of_lookup hget) with ⟨heq, -⟩ | ⟨hmem, -⟩
    · exact absurd heq htype
    · exact absurd hmem hkey

theorem isBound {key : String} (hkey : key ∈ boundKeys) {v : Json}
    (hget : Fields.get? fields key = some v) : IsBound v := by
  rcases h.only key v (Assoc.mem_of_lookup hget) with ⟨rfl, -⟩ | ⟨-, hv⟩
  · exact absurd hkey (by decide)
  · exact hv

theorem shape : Schema.shape fields = .intRange := by
  have hasks : AsksForInteger fields := by
    refine ⟨h.type, fun key hkey => ?_⟩
    have hall : ∀ key ∈ ["$ref", "oneOf", "anyOf", "const", "enum"], key ≠ "type" ∧ key ∉ boundKeys := by
      decide
    exact h.get?_eq_none key (hall key hkey).1 (hall key hkey).2
  rw [hasks.shape, if_pos h.bounded]

/-! ### Preparations -/

/-- There is no reference to resolve. -/
theorem sites_eq_nil : Resolver.sites (.obj fields) = [] := by
  have hfields {some_ : Fields} (hsub : some_ ⊆ fields) : Resolver.fieldSites some_ = [] := by
    induction some_ with
    | nil => rfl
    | cons first rest ih =>
      obtain ⟨key, v⟩ := first
      have hvalue : Resolver.sites v = [] := by
        rcases h.only key v (hsub List.mem_cons_self) with ⟨-, rfl⟩ | ⟨-, hv⟩
        · rfl
        · obtain ⟨x, rfl, -⟩ := hv.number
          rfl
      rw [Resolver.fieldSites, hvalue, ih fun x hx => hsub (List.mem_cons_of_mem _ hx)]
      simp
  have hnone : Resolver.hasReference fields = false := by
    rw [Resolver.hasReference, h.get?_eq_none _ (by decide) (by decide)]
  rw [Resolver.sites, hnone, hfields (List.Subset.refl _)]
  rfl

theorem isWritable : (Json.obj fields).isWritable = true := by
  refine Json.fieldsWritable_iff.2 fun x hx => ?_
  rcases h.only x.1 x.2 hx with ⟨-, hv⟩ | ⟨-, hv⟩
  · rw [hv]
    rfl
  · obtain ⟨n, hn, -, hfits⟩ := hv.number
    rw [hn]
    exact Schema.isWritable_of_fitsDouble hfits

/-- Whatever dialects are known, the check lets such a schema pass. -/
theorem checkIn_eq_nil (dialects : Metaschema.Dialects) :
    Metaschema.checkIn dialects (.obj fields) = .ok [] := by
  refine Metaschema.checkIn_of_isSchema dialects (h.get?_eq_none "$schema" (by decide) (by decide))
    h.isWritable (Metaschema.isSchema_obj_iff.2 ?_)
  rintro ⟨key, check⟩ hentry v hget
  rcases h.only key v (Assoc.mem_of_lookup hget) with ⟨rfl, rfl⟩ | ⟨hkey, hv⟩
  · obtain rfl : check = _ := by simpa [Metaschema.Check.keywords] using hentry
    refine Metaschema.meets_anyOf_iff.2 ⟨.simpleTypes, List.mem_cons_self, ?_⟩
    simp [Metaschema.Meets, Metaschema.Check.simpleTypes, Metaschema.issues, Metaschema.issueUnless,
      Json.isText]
  · obtain ⟨x, rfl, -⟩ := hv.number
    have hnumber : check = .number := by
      simp only [boundKeys, List.mem_cons, List.not_mem_nil, or_false] at hkey
      rcases hkey with rfl | rfl | rfl | rfl <;> simpa [Metaschema.Check.keywords] using hentry
    rw [hnumber, Metaschema.Check.number, Metaschema.meets_types_iff]
    rfl

/-! ### Compiling -/

omit h in
theorem visitIntRange_eq (options : Options) {b : Bounds} (hbounds : boundsOf fields = .ok b) :
    Schema.visitIntRange options ⟨fields, "", "root"⟩ =
      Session.orFail ((IntRange.expression b.low b.high options.maxDigits).mapError
        fun fault => (Failure.unsatisfiableBounds (.obj fields) fault).raised) >>= fun e =>
          Session.addRule "root" ("(" ++ e ++ ") space") := by
  have hfold : boundKeys.foldlM (Schema.addBound (.obj fields) fields) ⟨none, none⟩ = .ok b :=
    hbounds
  have hstep (f : Bounds → CompileM String) : (Session.orFail (.ok b) >>= f) = f b := rfl
  unfold Schema.visitIntRange
  simp only [Schema.Site.schema, hfold, hstep]
  cases IntRange.expression b.low b.high options.maxDigits with
  | ok e => rfl
  | error fault => rfl

/-- What compiling comes to: the expression for the range is the root, or the bounds are to
    blame. -/
theorem compile_eq (options : Options) {b : Bounds} (hbounds : boundsOf fields = .ok b) :
    Compiler.compile options (.obj fields) =
      ((IntRange.expression b.low b.high options.maxDigits).mapError
        (.unsatisfiableBounds (.obj fields))).map fun e =>
          (RuleTable.new.add "root" ("(" ++ e ++ ") space")).2 := by
  obtain ⟨depth, hdocument⟩ := Compiler.compileDocument_of_sites options h.sites_eq_nil
  have hvisit : Schema.visitWith (Schema.visit options depth) options (.obj fields) "" =
      Schema.visitIntRange options ⟨fields, "", "root"⟩ := by
    simp only [Schema.visitWith, h.shape]
    rfl
  have hraised (fault : RangeFault) : (Failure.unsatisfiableBounds (.obj fields) fault).raised =
      .unsatisfiableBounds (.obj fields) fault :=
    Failure.raised_of_isWritable (by simpa [Failure.shownValues] using h.isWritable)
  rw [Compiler.compile_of_check (h.checkIn_eq_nil _), hdocument, hvisit,
    visitIntRange_eq options hbounds]
  simp only [hraised]
  cases IntRange.expression b.low b.high options.maxDigits with
  | ok e => rfl
  | error fault => rfl

/-! ### The range -/

variable {options : Options} {k : Int} {b : Bounds}

/-- At least one side is bounded. -/
theorem exists_bound (hcomes : ComesTo fields b) : b.low.isSome = true ∨ b.high.isSome = true := by
  have hbounded := h.bounded
  rw [hcomes.low, hcomes.high]
  simpa [givesOne, boundKeys, lowerKeys, upperKeys, or_assoc] using hbounded

theorem areModest (hbounds : boundsOf fields = .ok b) : b.AreModest := by
  refine Schema.areModest_boundsOf (fun key hkey => ?_) hbounds
  cases hget : Fields.get? fields key with
  | none => simp [Schema.keyword, hget, Schema.IsProperBound]
  | some v => simpa [Schema.keyword, hget] using (h.isBound hkey hget).proper

/-- There is an expression if the bounds are in order and, where a side is open, the digits behind the
    first one can be counted. -/
theorem exists_expression_iff (hk : options.maxDigits = .whole k) (hbounds : boundsOf fields = .ok b)
    (hcomes : ComesTo fields b) :
    (∃ e, IntRange.expression b.low b.high options.maxDigits = .ok e) ↔
      ¬ (givesOne fields lowerKeys = true ∧ givesOne fields upperKeys = true ∧
        ∀ n, ¬ SatisfiesBounds fields n) ∧
      (givesOne fields lowerKeys = false ∨ givesOne fields upperKeys = false →
        IsWritable (k - 1).toNat) := by
  have hmodest := h.areModest hbounds
  have hlow (n : Int) (hn : n ∈ b.low) : IsWritable n.natAbs := (hmodest.1 n hn).isWritable
  have hhigh (n : Int) (hn : n ∈ b.high) : IsWritable n.natAbs := (hmodest.2 n hn).isWritable
  rw [hk, IntRange.exists_expression_iff, ← hcomes.unsatisfiable_iff, ← hcomes.low, ← hcomes.high,
    Option.isSome_eq_false_iff, Option.isSome_eq_false_iff, Option.isNone_iff_eq_none,
    Option.isNone_iff_eq_none, and_iff_right (h.exists_bound hcomes), and_iff_right hlow,
    and_iff_right hhigh]
  simp only [not_exists, not_and, not_lt]

/-- Without an expression the schema is refused. -/
theorem refused_of_none (hbounds : boundsOf fields = .ok b)
    (hnone : ¬ ∃ e, IntRange.expression b.low b.high options.maxDigits = .ok e) :
    ∃ e, Compiler.compile options (.obj fields) = .error e ∧
      e.title? = some "UnrecognizedSchemaError" := by
  have hcompile := h.compile_eq options hbounds
  cases hexpression : IntRange.expression b.low b.high options.maxDigits with
  | ok e => exact absurd ⟨e, hexpression⟩ hnone
  | error fault =>
    rw [hexpression] at hcompile
    exact ⟨_, hcompile, rfl⟩

/-- With one, the grammar accepts the numerals of the integers within the bounds and the ceiling. -/
theorem accepts_of_expression {e : String} (hk : options.maxDigits = .whole k)
    (hbounds : boundsOf fields = .ok b) (hcomes : ComesTo fields b)
    (he : IntRange.expression b.low b.high options.maxDigits = .ok e) :
    ∃ t g, Compiler.compile options (.obj fields) = .ok t ∧ Grammar.ofText t.text = .ok g ∧
      ∀ (order : Grammar.Order) (text : String),
        ∃ v, Grammar.checkIn order g text Grammar.startRule = .ok v ∧
          (v.accepted = true ↔ ∃ n, ∃ w ∈ Schema.blanks, SatisfiesBounds fields n ∧
            IsWithinCeiling (max k.toNat 1) fields n ∧
              text.toList = (intText n).toList ++ w) := by
  have hcompile := h.compile_eq options hbounds
  rw [he] at hcompile
  have hnew := RuleTable.sound_new True
  obtain ⟨t, g, hadd, hread, haccepts⟩ := hnew.accepts_root rfl
    (Schema.writes_group_space hnew.complete
      (writes_bounds .new hk hcomes (h.exists_bound hcomes) he))
  have hok : Compiler.compile options (.obj fields) = .ok t := by
    rw [hcompile, Except.mapError, Except.map, hadd]
  refine ⟨t, g, hok, hread, fun order text => ?_⟩
  obtain ⟨v, hv, hiff⟩ := haccepts order text
  refine ⟨v, hv, hiff.trans ?_⟩
  constructor
  · intro hmem
    obtain ⟨numeral, ⟨n, ⟨hn, hwithin⟩, rfl⟩, w, hw, heq⟩ := Language.mem_mul.1 hmem
    exact ⟨n, w, hw, hn, hwithin, heq.symm⟩
  · rintro ⟨n, w, hw, hn, hwithin, heq⟩
    rw [heq]
    exact Language.append_mem_mul ⟨n, ⟨hn, hwithin⟩, rfl⟩ hw

end IsBoundedInteger

/-- **Integer bounds are normalised exactly.** Where a side is open, the ceiling of digits has to have
    few enough digits to be written. Then a schema for a bounded integer is refused if and only if both
    sides are bounded and no integer satisfies all bounds. Otherwise its grammar accepts the numerals of
    the integers that do, with blanks behind them; where a side is open, those that the ceiling of
    digits allows. Where the ceiling of an open side cannot be written, the schema is refused. -/
theorem accepts_bounded_integers {options : Options} {k : Int} {fields : Fields}
    (h : IsBoundedInteger fields) (hk : options.maxDigits = .whole k) :
    ((givesOne fields lowerKeys = false ∨ givesOne fields upperKeys = false → IsWritable k.toNat) →
      ((∃ e, Compiler.compile options (.obj fields) = .error e ∧
          e.title? = some "UnrecognizedSchemaError") ↔
        givesOne fields lowerKeys = true ∧ givesOne fields upperKeys = true ∧
          ∀ n, ¬ SatisfiesBounds fields n) ∧
      (¬ (givesOne fields lowerKeys = true ∧ givesOne fields upperKeys = true ∧
          ∀ n, ¬ SatisfiesBounds fields n) →
        ∃ t g, Compiler.compile options (.obj fields) = .ok t ∧ Grammar.ofText t.text = .ok g ∧
          ∀ (order : Grammar.Order) (text : String),
            ∃ v, Grammar.checkIn order g text Grammar.startRule = .ok v ∧
              (v.accepted = true ↔ ∃ n, ∃ w ∈ Schema.blanks, SatisfiesBounds fields n ∧
                IsWithinCeiling (max k.toNat 1) fields n ∧
                  text.toList = (intText n).toList ++ w))) ∧
    (givesOne fields lowerKeys = false ∨ givesOne fields upperKeys = false →
      ¬ IsWritable (k - 1).toNat →
        ∃ e, Compiler.compile options (.obj fields) = .error e ∧
          e.title? = some "UnrecognizedSchemaError") := by
  obtain ⟨b, hbounds, hcomes⟩ := Schema.exists_boundsOf fun key hkey v hget => h.isBound hkey hget
  have hiff := h.exists_expression_iff hk hbounds hcomes
  constructor
  · intro hopen
    have hfewer : givesOne fields lowerKeys = false ∨ givesOne fields upperKeys = false →
        IsWritable (k - 1).toNat := fun hside => (hopen hside).mono (by omega)
    refine ⟨⟨fun hfailed => ?_, fun hempty => ?_⟩, fun hordered => ?_⟩
    · by_contra hordered
      obtain ⟨e, he⟩ := hiff.2 ⟨hordered, hfewer⟩
      obtain ⟨t, g, hok, -⟩ := h.accepts_of_expression hk hbounds hcomes he
      obtain ⟨fault, herror, -⟩ := hfailed
      cases hok.symm.trans herror
    · exact h.refused_of_none hbounds fun hsome => (hiff.1 hsome).1 hempty
    · obtain ⟨e, he⟩ := hiff.2 ⟨hordered, hfewer⟩
      exact h.accepts_of_expression hk hbounds hcomes he
  · intro hside hfar
    exact h.refused_of_none hbounds fun hsome => hfar ((hiff.1 hsome).2 hside)

/-- Two and a half below zero. -/
def minusTwoAndAHalf : Double :=
  .finite true (5 * 2 ^ 50) (-51)

/-- Not below minus seven, and above minus two and a half. -/
def aboveTwoAndAHalf : Fields :=
  [("type", .str "integer"), ("minimum", .num (.whole (-7))),
    ("exclusiveMinimum", .num (.double minusTwoAndAHalf))]

theorem satisfiesBounds_aboveTwoAndAHalf {n : Int} :
    SatisfiesBounds aboveTwoAndAHalf n ↔ -2 ≤ n := by
  have hvalue : minusTwoAndAHalf.rational = -5 / 2 := by
    norm_num [minusTwoAndAHalf, Double.rational]
  have hbound : ((-5 / 2 : ℚ) < n) ↔ -2 ≤ n := by
    rw [← Int.floor_lt, show ⌊(-5 / 2 : ℚ)⌋ = -3 by norm_num]
    omega
  have hseven : ((-7 : ℚ) ≤ n) ↔ -7 ≤ n := by exact_mod_cast Iff.rfl
  simp only [SatisfiesBounds, boundKeys, aboveTwoAndAHalf, Fields.get?]
  simp [Assoc.lookup_cons, Schema.Meets, Number.rational, hvalue, hbound, hseven]
  omega

theorem isBoundedInteger_aboveTwoAndAHalf : IsBoundedInteger aboveTwoAndAHalf := by
  refine ⟨rfl, rfl, fun key v hmem => ?_⟩
  have hcases : key = "type" ∧ v = .str "integer" ∨ key = "minimum" ∧ v = .num (.whole (-7)) ∨
      key = "exclusiveMinimum" ∧ v = .num (.double minusTwoAndAHalf) := by
    simpa [aboveTwoAndAHalf] using hmem
  rcases hcases with htype | ⟨rfl, rfl⟩ | ⟨rfl, rfl⟩
  · exact .inl htype
  · exact .inr ⟨by decide, fun x hx => by simp at hx, _, rfl, rfl, by decide +kernel⟩
  · refine .inr ⟨by decide, fun x hx => ?_, _, rfl, rfl, rfl⟩
    obtain rfl : minusTwoAndAHalf = x := by simpa using hx
    exact ⟨by decide, by decide⟩

theorem accepts_bounded_integers_aboveTwoAndAHalf : ∃ t g,
    Compiler.compile .standard (.obj aboveTwoAndAHalf) = .ok t ∧ Grammar.ofText t.text = .ok g ∧
      ∀ (order : Grammar.Order) (text : String),
        ∃ v, Grammar.checkIn order g text Grammar.startRule = .ok v ∧
          (v.accepted = true ↔ ∃ n, ∃ w ∈ Schema.blanks, -2 ≤ n ∧
            (0 ≤ n → IntRange.width n ≤ 16) ∧ text.toList = (intText n).toList ++ w) := by
  have hdefault : Options.standard.maxDigits = .whole 16 := rfl
  have hsixteen : IsWritable (16 : Int).toNat :=
    lt_of_lt_of_le (by decide : (16 : Int).toNat < 10 ^ 2)
      (Nat.pow_le_pow_right (by decide) (by decide))
  obtain ⟨t, g, hcompile, hread, haccepts⟩ :=
    ((accepts_bounded_integers isBoundedInteger_aboveTwoAndAHalf hdefault).1 fun _ => hsixteen).2
      fun hnone => hnone.2.2 0 (satisfiesBounds_aboveTwoAndAHalf.2 (by decide))
  -- the least integer is negative, so only the ceiling limits the others
  have hwithin (n : Int) : IsWithinCeiling (max (16 : Int).toNat 1) aboveTwoAndAHalf n ↔
      (0 ≤ n → IntRange.width n ≤ 16) := by
    have hupper : givesOne aboveTwoAndAHalf upperKeys = false := rfl
    have hlower : givesOne aboveTwoAndAHalf lowerKeys = true := rfl
    refine ⟨fun h hn => (h.1 hupper hn).resolve_right ?_, fun h => ⟨fun _ hn => .inl (h hn), ?_⟩⟩
    · rintro ⟨least, hleast, hsign, -⟩
      have hle := hleast.2 (satisfiesBounds_aboveTwoAndAHalf.2 (le_refl (-2)))
      omega
    · simp [hlower]
  refine ⟨t, g, hcompile, hread, fun order text => ?_⟩
  obtain ⟨v, hv, hiff⟩ := haccepts order text
  exact ⟨v, hv, by simpa only [satisfiesBounds_aboveTwoAndAHalf, hwithin] using hiff⟩

end SchemaGrammar
