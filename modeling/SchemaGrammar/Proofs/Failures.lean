import SchemaGrammar.Diagnosis
import SchemaGrammar.Proofs.Documents
import SchemaGrammar.Proofs.Ending
import SchemaGrammar.Proofs.Priorities
import SchemaGrammar.Proofs.Schema.Checked
import SchemaGrammar.Proofs.Schema.Writing

set_option autoImplicit false

/-! # Failures and their names

A failure that a schema is to blame for has a title, under which it is reported. Compiling a document
that the metaschema has nothing against fails under such a title, or in a way that `Escape` lists,
each with what is wrong in the document (`compile_fails_by_name`): digits in a reference that are not
decimal, a number of too many digits, a truth value among combined schemas, a bound too large for a
double, a pattern that repeats more often at least than at most, a schema that contains itself, or a
place that the metaschema does not look at and would have something against. -/

namespace SchemaGrammar

open Json (Fields Part)
open Metaschema (IsSchema)
open Work (except_bind_eq_error)

namespace Failure

variable {e : Failure}

/-- A failure is reported under a title. -/
def IsNamed (e : Failure) : Prop :=
  e.title?.isSome = true

/-- The usual ways for a schema to fail: under a title, for the digits of a number, or for a value of
    a kind that was not expected. -/
def IsUsual (e : Failure) : Prop :=
  e.IsNamed ∨ e = .tooManyDigits ∨ e.IsMisuse

theorem IsMisuse.isUsual (h : e.IsMisuse) : e.IsUsual :=
  .inr (.inr h)

theorem IsNamed.raised (h : e.IsNamed) : e.raised.IsNamed ∨ e.raised = .tooManyDigits := by
  rcases e.raised_eq with heq | heq
  · rw [heq]
    exact .inl h
  · exact .inr heq

theorem IsNamed.isUsual_raised (h : e.IsNamed) : e.raised.IsUsual := by
  rcases h.raised with hnamed | hdigits
  · exact .inl hnamed
  · exact .inr (.inl hdigits)

theorem IsNamed.not_isMisuse_raised (h : e.IsNamed) : ¬ e.raised.IsMisuse := by
  rintro ⟨cause, heq⟩
  rcases h.raised with hnamed | hdigits
  · rw [heq] at hnamed
    cases hnamed
  · rw [heq] at hdigits
    cases hdigits

end Failure

/-! ## References -/

namespace Resolver

open Pointer (segments)

/-- A segment of digits that are not all decimal. -/
def IsUnreadable (segment : List Char) : Prop :=
  segment.all Text.isDigit = true ∧ Text.readInt? 10 segment = none

theorem step?_error {v : Json} {segment : List Char} {e : Failure}
    (h : Pointer.step? v segment = .error e) :
    IsUnreadable segment ∧ e = .misuse (.numeral (String.ofList segment)) := by
  cases v with
  | arr items =>
    rcases except_bind_eq_error.1 h with hindex | ⟨found, -, hlast⟩
    · unfold Pointer.index? at hindex
      split_ifs at hindex with hdigits
      split at hindex
      · cases hindex
      · rename_i hread
        have hall : segment.all Text.isDigit = true := by
          rw [Bool.or_eq_true, not_or] at hdigits
          simpa using hdigits.2
        exact ⟨⟨hall, hread⟩, (Except.error.inj hindex).symm⟩
    · cases found <;> cases hlast
  | _ => cases h

theorem broken_eq_error {ref segment : String} {v : Json} {e : Failure}
    (he : (Failure.brokenReference ref segment v).raised = e) :
    e.IsNamed ∨ e = .tooManyDigits ∧ v.isWritable ≠ true := by
  by_cases hwritable : v.isWritable = true
  · have hraised : (Failure.brokenReference ref segment v).raised = .brokenReference ref segment v :=
      Failure.raised_of_isWritable fun w hw => List.mem_singleton.1 hw ▸ hwritable
    rw [← he, hraised]
    exact .inl rfl
  · refine (Failure.IsNamed.raised (e := .brokenReference ref segment v) rfl).imp ?_ ?_
    · exact fun hnamed => he ▸ hnamed
    · exact fun hdigits => ⟨he ▸ hdigits, hwritable⟩

/-- Following a pointer fails under a title, where a value cannot be shown, or where a segment has
    unreadable digits. -/
theorem follow_error {ref : String} {path : List (List Char)} {v : Json} {e : Failure}
    (h : Pointer.follow ref path v = .error e) :
    (e.IsNamed ∨ e = .tooManyDigits ∧ v.isWritable ≠ true) ∨
      ∃ segment ∈ path, IsUnreadable segment ∧ e = .misuse (.numeral (String.ofList segment)) := by
  induction path generalizing v with
  | nil => cases h
  | cons segment rest ih =>
    rw [Pointer.follow] at h
    rcases except_bind_eq_error.1 h with hstep | ⟨step, -, hmore⟩
    · exact .inr ⟨segment, List.mem_cons_self, step?_error hstep⟩
    · cases step with
      | none => exact .inl (broken_eq_error (Except.error.inj hmore))
      | some step =>
        dsimp only at hmore
        cases hchild : v.child? step with
        | none =>
          rw [hchild] at hmore
          exact .inl (broken_eq_error (Except.error.inj hmore))
        | some w =>
          rw [hchild] at hmore
          rcases except_bind_eq_error.1 hmore with hrest | ⟨_, -, hlast⟩
          · obtain (hnamed | ⟨hdigits, hlong⟩) | ⟨other, hother, hfails⟩ := ih hrest
            · exact .inl (.inl hnamed)
            · refine .inl (.inr ⟨hdigits, fun hwritable => hlong ?_⟩)
              exact Json.isWritable_of_part (Json.part_of_child? hchild) hwritable
            · exact .inr ⟨other, List.mem_cons_of_mem _ hother, hfails⟩
          · cases hlast

end Resolver

namespace Schema

variable {document S : Json} {options : Options} {resolver : Resolver} {fields : Fields} {e : Failure}

/-- The ways to fail that have no title, with what is wrong for each of them. -/
inductive Escape (document : Json) : Failure → Prop
  /-- A segment of a reference is of digits that are not all decimal. -/
  | digits {path ref segment} (href : Resolver.referenceAt? document path = some ref)
      (hsegment : segment ∈ Pointer.segments ref) (hdigits : Resolver.IsUnreadable segment) :
      Escape document (.misuse (.numeral (String.ofList segment)))
  /-- A number in the document has too many digits to be written. -/
  | number {x} (hpart : Part (.num x) document) (hlong : x.isWritable = false) :
      Escape document .tooManyDigits
  /-- A part of a combined schema, or what it refers to, is a truth value. -/
  | part {fs part b cause} (hreaches : Reaches document document (.obj fs))
      (hshape : shape fs = .allOf) (hpart : part ∈ partsOf fs)
      (hvalue : partValue document part = .bool b)
      (hcause : cause = .noContents .bool ∨ cause = .lacks .bool "get") :
      Escape document (.misuse cause)
  /-- An integer has a bound that no double can hold. -/
  | bound {fs key n} (hreaches : Reaches document document (.obj fs))
      (hshape : shape fs = .intRange) (hkey : key ∈ boundKeys)
      (hget : keyword fs key = .num (.whole n)) (hlarge : (Number.whole n).fitsDouble = false) :
      Escape document (.misuse .tooLarge)
  /-- A pattern repeats something more often at least than at most. -/
  | counts {fs pattern source x low most} (hreaches : Reaches document document (.obj fs))
      (hshape : shape fs = .pattern) (hkeyword : keyword fs "pattern" = .str pattern)
      (hsource : Pattern.unanchored? pattern = some source)
      (hx : x ∈ Pattern.lexemes source.toList) (htoken : x.token = .counts low (some most))
      (habove : most < low) :
      Escape document (.count (.crossed (.num (.whole low)) (.num (.whole most))))
  /-- A schema contains itself. -/
  | endless {T} (hreaches : Reaches document document T) (hself : ContainsItself document T) :
      Escape document .endless
  /-- What a reference points at is no schema; the metaschema looks only where keywords stand. -/
  | target {T ref v cause} (hreaches : Reaches document document T) (hlooks : LooksUp T (.str ref))
      (htarget : targetOf document ref = some v) (hunchecked : ¬ IsSchema v) :
      Escape document (.misuse cause)
  /-- An item of a tuple is no schema; the metaschema does not know `"prefixItems"`. -/
  | item {fs items item cause} (hreaches : Reaches document document (.obj fs))
      (hshape : shape fs = .tuple) (hget : Fields.get? fs "prefixItems" = some (.arr items))
      (hitem : item ∈ items) (hunchecked : ¬ IsSchema item) :
      Escape document (.misuse cause)

/-! ## All schemas -/

open Failure (IsMisuse IsNamed IsUsual)

theorem usual_lookUp {ref : Json} (h : resolver.lookUp ref = .error e) : e.IsUsual := by
  have hnamed : (Failure.unresolvedReference ref).IsNamed := rfl
  cases ref with
  | arr _ | obj _ => exact Except.error.inj h ▸ IsMisuse.isUsual ⟨_, rfl⟩
  | str text =>
    unfold Resolver.lookUp at h
    dsimp only [checkKey, bind, Except.bind] at h
    split at h
    · cases h
    · exact Except.error.inj h ▸ hnamed.isUsual_raised
  | _ => exact Except.error.inj h ▸ hnamed.isUsual_raised

theorem ValueFault.usual (h : ValueFault S e) : e.IsUsual := by
  cases h with
  | kind h => exact (misuses_fieldsFor _ _ e h).isUsual
  | properties _ h => exact (misuses_declaredProperties _ e h).isUsual
  | constants _ _ h => exact (misuses_elements _ e h).isUsual
  | digits _ _ _ h => exact .inr (.inl (forM_checkWritable_eq_error h).2)

theorem PartFault.usual (h : PartFault resolver S e) : e.IsUsual := by
  cases h with
  | search h => exact (misuses_containsText _ _ e h).isUsual
  | field _ h => exact (misuses_fieldOf _ _ e h).isUsual
  | target _ h => exact usual_lookUp h
  | value _ _ h => exact h.usual
  | plain _ h => exact h.usual

theorem BranchFault.usual (h : BranchFault resolver S e) : e.IsUsual := by
  cases h with
  | search h => exact (misuses_containsText _ _ e h).isUsual
  | field _ h => exact (misuses_fieldOf _ _ e h).isUsual
  | parts _ _ h => exact (misuses_elements _ e h).isUsual
  | part _ h => exact h.usual

/-- Counts that are at fault are reported under a title; all else that can happen to them is that
    they are compared with a value of another kind. -/
theorem usual_of_isCounting (h : Grammar.IsCounting e) (hkind : ∀ fault, e ≠ .count fault) :
    e.IsUsual := by
  obtain ⟨fault, heq⟩ | hmisuse := h
  · exact absurd heq (hkind fault)
  · exact hmisuse.isUsual

/-- **Any schema** fails in a usual way, or for the counts of a pattern. -/
theorem Fault.usual_or_escapes (hreaches : Reaches document document S)
    (h : Fault options resolver S e) : e.IsUsual ∨ Escape document e := by
  have hraised (e : Failure) (hnamed : e.IsNamed) : e.raised.IsUsual ∨ Escape document e.raised :=
    .inl hnamed.isUsual_raised
  cases h with
  | unrecognized => exact hraised _ rfl
  | counts => exact hraised _ rfl
  | range => exact hraised _ rfl
  | reference _ h => exact .inl (usual_lookUp h)
  | choices _ h => exact .inl (misuses_elements _ e h).isUsual
  | types _ h => exact .inl (misuses_elements _ e h).isUsual
  | const _ h => exact .inl (.inr (.inl (checkWritable_eq_error h).2))
  | constants _ h => exact .inl (misuses_elements _ e h).isUsual
  | digits _ _ h => exact .inl (.inr (.inl (forM_checkWritable_eq_error h).2))
  | properties _ h => exact .inl (misuses_declaredProperties _ e h).isUsual
  | required _ h => exact .inl (misuses_requiredNames _ e h).isUsual
  | order h => exact .inl (misuses_sortProperties _ _ e h).isUsual
  | branches _ h => exact .inl (misuses_elements _ e h).isUsual
  | branch _ _ h => exact .inl h.usual
  | itemCounts _ h hkind =>
    exact .inl (usual_of_isCounting (Grammar.fails_separatedRepetition _ _ _ _ e h) hkind)
  | lengths _ h hkind =>
    exact .inl (usual_of_isCounting (Grammar.fails_repetition _ _ _ e h) hkind)
  | patternKind => exact .inl (IsMisuse.isUsual ⟨_, rfl⟩)
  | pattern hshape hkeyword h =>
    cases h with
    | @pattern fault source index => exact .inl (.inl (by cases fault <;> rfl))
    | counts hsource hx htoken habove =>
      exact .inr (.counts hreaches hshape hkeyword hsource hx htoken habove)
  | bounds _ h =>
    obtain ⟨key, -, v, -, ⟨rfl, -⟩ | rfl⟩ := boundsOf_eq_error h
    · exact .inl (IsMisuse.isUsual ⟨_, rfl⟩)
    · exact hraised _ rfl

/-! ## Combined schemas that have been checked -/

theorem not_isMisuse_of_lookUp {ref : Json} (hkey : checkKey ref = .ok ())
    (h : resolver.lookUp ref = .error e) : ¬ e.IsMisuse := by
  have hnamed : (Failure.unresolvedReference ref).IsNamed := rfl
  cases ref with
  | arr _ | obj _ => cases hkey
  | str text =>
    unfold Resolver.lookUp at h
    dsimp only [checkKey, bind, Except.bind] at h
    split at h
    · cases h
    · exact Except.error.inj h ▸ hnamed.not_isMisuse_raised
  | _ => exact Except.error.inj h ▸ hnamed.not_isMisuse_raised

/-- Asking for a text fails only for truth values. -/
theorem containsText_error {s : String} (hS : IsSchema S) (h : containsText S s = .error e) :
    ∃ b, S = .bool b ∧ e = .misuse (.noContents .bool) := by
  rcases hS.cases with ⟨b, rfl⟩ | ⟨fields, rfl⟩
  · exact ⟨b, rfl, (Except.error.inj h).symm⟩
  · cases h

theorem fieldOf_ne_error {s key : String} (hS : IsSchema S) (hhas : containsText S s = .ok true) :
    fieldOf S key ≠ .error e := by
  rcases hS.cases with ⟨b, rfl⟩ | ⟨fields, rfl⟩
  · cases hhas
  · simp [fieldOf]

/-- So does taking properties and constants. -/
theorem ValueFault.cause (hS : IsSchema S) (h : ValueFault S e) (he : e.IsMisuse) :
    ∃ b, S = .bool b ∧ e = .misuse (.lacks .bool "get") := by
  rcases hS.cases with ⟨b, rfl⟩ | ⟨fields, rfl⟩
  · cases h with
    | kind h => exact ⟨b, rfl, (Except.error.inj h).symm⟩
    | properties hvalue _ => cases hvalue
    | constants hvalue _ _ => cases hvalue
    | digits hvalue _ _ _ => cases hvalue
  · cases h with
    | kind h => cases h
    | properties hvalue h =>
      obtain rfl := Except.ok.inj hvalue
      obtain ⟨declared, hdeclared, -⟩ := exists_declared hS
      cases hdeclared.symm.trans h
    | constants hvalue hget h =>
      obtain rfl := Except.ok.inj hvalue
      obtain ⟨items, rfl⟩ := exists_constants hS hget
      cases h
    | digits _ _ _ h => exact absurd (forM_checkWritable_eq_error h).2 he.ne_tooManyDigits

theorem PartFault.escapes (hbeyond : IsCheckedBeyond document)
    (hrecords : resolver.Records document) (hreaches : Reaches document document (.obj fields))
    (hS : IsSchema (.obj fields)) (hshape : shape fields = .allOf) {branch part : Json}
    (hbranch : branch ∈ valuesOf (keyword fields "allOf")) (hmem : part ∈ branchParts branch)
    (h : PartFault resolver part e) (he : e.IsMisuse) : Escape document e := by
  have hpart : part ∈ partsOf fields := List.mem_flatMap.2 ⟨branch, hbranch, hmem⟩
  have hschema := isSchema_of_mem_partsOf hS hshape hpart
  cases h with
  | search h =>
    obtain ⟨b, rfl, rfl⟩ := containsText_error hschema h
    exact .part hreaches hshape hpart rfl (.inl rfl)
  | field hhas h => exact absurd h (fieldOf_ne_error hschema hhas)
  | @target ref _ href h =>
    refine absurd he (not_isMisuse_of_lookUp ?_ h)
    rcases hschema.cases with ⟨b, rfl⟩ | ⟨inner, rfl⟩
    · cases href
    · obtain rfl : keyword inner "$ref" = ref := Except.ok.inj href
      cases hget : Fields.get? inner "$ref" with
      | none => rw [keyword, hget]; rfl
      | some v =>
        obtain ⟨s, hs⟩ := exists_text hschema (by rw [Fields.has, hget]; rfl) rfl
        rw [hs]
        rfl
  | @value ref v _ href hfound h =>
    obtain ⟨text, rfl, hfind⟩ := Resolver.lookUp_eq_ok hfound
    have htarget := hrecords.find? hfind
    have hv := hbeyond.targets _ text v hreaches (.part hshape hbranch hmem href) htarget
    obtain ⟨b, rfl, rfl⟩ := h.cause hv he
    refine .part hreaches hshape hpart (b := b) ?_ (.inr rfl)
    rcases hschema.cases with ⟨b', rfl⟩ | ⟨inner, rfl⟩
    · cases href
    · have hkeyword : keyword inner "$ref" = .str text := Except.ok.inj href
      have hhas : Fields.has inner "$ref" = true := by
        by_contra hnone
        rw [keyword, Option.not_isSome_iff_eq_none.1 hnone] at hkeyword
        cases hkeyword
      rw [partValue, if_pos hhas, referenceTarget, hkeyword]
      dsimp only
      rw [htarget, Option.getD_some]
  | plain hhas h =>
    obtain ⟨b, rfl, rfl⟩ := h.cause hschema he
    cases hhas

theorem BranchFault.escapes (hbeyond : IsCheckedBeyond document)
    (hrecords : resolver.Records document) (hreaches : Reaches document document (.obj fields))
    (hS : IsSchema (.obj fields)) (hshape : shape fields = .allOf) {branch : Json}
    (hbranch : branch ∈ valuesOf (keyword fields "allOf")) (h : BranchFault resolver branch e)
    (he : e.IsMisuse) : Escape document e := by
  have hschema : IsSchema branch := by
    obtain ⟨items, hitems, hschemas⟩ := exists_branches hS hshape
    rw [valuesOf_eq hitems] at hbranch
    exact hschemas branch hbranch
  cases h with
  | search h =>
    obtain ⟨b, rfl, rfl⟩ := containsText_error hschema h
    have hpart : Json.bool b ∈ partsOf fields :=
      List.mem_flatMap.2 ⟨_, hbranch, List.mem_singleton.2 rfl⟩
    exact .part hreaches hshape hpart rfl (.inl rfl)
  | field hhas h => exact absurd h (fieldOf_ne_error hschema hhas)
  | parts hhas hv h =>
    rcases hschema.cases with ⟨b, rfl⟩ | ⟨inner, rfl⟩
    · cases hhas
    · obtain ⟨items, hitems, -⟩ := exists_schemas hschema (Except.ok.inj hhas) rfl
      obtain rfl := Except.ok.inj hv
      rw [show (Fields.get? inner "anyOf").getD .null = .arr items from hitems] at h
      cases h
  | part hmem h => exact h.escapes hbeyond hrecords hreaches hS hshape hbranch hmem he

/-! ## Schemas that have been checked -/

/-- A checked schema uses no value as its kind does not allow, but for truth values and bounds. -/
theorem Fault.escapes (hbeyond : IsCheckedBeyond document) (ho : options.RanksByNumber)
    (hrecords : resolver.Records document) (hreaches : Reaches document document S)
    (hS : IsSchema S) (h : Fault options resolver S e) (he : e.IsMisuse) : Escape document e := by
  have hraised (e : Failure) (hnamed : e.IsNamed) (hmisuse : e.raised.IsMisuse) :
      Escape document e.raised :=
    absurd hmisuse hnamed.not_isMisuse_raised
  cases h with
  | unrecognized => exact hraised _ rfl he
  | counts => exact hraised _ rfl he
  | range => exact hraised _ rfl he
  | reference hshape h =>
    obtain ⟨ref, href⟩ := exists_text hS (Shape.Needs.of_eq hshape) rfl
    rw [href] at h
    exact absurd he (not_isMisuse_of_lookUp rfl h)
  | choices hshape h =>
    obtain ⟨items, hitems, -⟩ := exists_choices hS hshape
    cases (congrArg elements hitems).symm.trans h
  | types hshape h =>
    obtain ⟨items, hget⟩ := exists_of_typeUnion hshape
    rw [keyword_of_get? hget] at h
    cases h
  | const _ h => exact absurd (checkWritable_eq_error h).2 he.ne_tooManyDigits
  | constants hshape h =>
    obtain ⟨v, hget⟩ := exists_of_has (Shape.Needs.of_eq hshape)
    obtain ⟨items, rfl⟩ := exists_constants hS hget
    rw [keyword_of_get? hget] at h
    cases h
  | digits _ _ h => exact absurd (forM_checkWritable_eq_error h).2 he.ne_tooManyDigits
  | properties _ h =>
    obtain ⟨declared, hdeclared, -⟩ := exists_declared hS
    cases hdeclared.symm.trans h
  | required _ h =>
    obtain ⟨names, hnames⟩ := exists_required hS
    cases hnames.symm.trans h
  | @order _ names _ h =>
    obtain ⟨sorted, hsorted⟩ := Options.exists_sortProperties ho names
    cases hsorted.symm.trans h
  | branches hshape h =>
    obtain ⟨items, hitems, -⟩ := exists_branches hS hshape
    rw [hitems] at h
    cases h
  | branch hshape hbranch h => exact h.escapes hbeyond hrecords hreaches hS hshape hbranch he
  | itemCounts _ h hkind =>
    obtain ⟨⟨low, hlow⟩, hhigh⟩ := exists_counts hS "minItems" "maxItems" rfl rfl
    rw [hlow] at h
    obtain ⟨fault, rfl⟩ := Grammar.separatedRepetition_of_numbers hhigh h
    exact absurd rfl (hkind fault)
  | lengths _ h hkind =>
    obtain ⟨⟨low, hlow⟩, hhigh⟩ := exists_counts hS "minLength" "maxLength" rfl rfl
    rw [hlow] at h
    obtain ⟨fault, rfl⟩ := Grammar.repetition_of_numbers hhigh h
    exact absurd rfl (hkind fault)
  | patternKind hshape hkind =>
    obtain ⟨pattern, hpattern⟩ := exists_text hS (Shape.Needs.of_eq hshape) rfl
    exact absurd hpattern (hkind pattern)
  | pattern _ _ h =>
    obtain ⟨cause, heq⟩ := he
    cases h <;> cases heq
  | bounds hshape h =>
    obtain ⟨key, hkey, v, hget, ⟨rfl, n, rfl, hlarge⟩ | rfl⟩ := boundsOf_eq_error h
    · exact .bound hreaches hshape hkey (keyword_of_get? hget) hlarge
    · exact hraised _ rfl he

/-- What the metaschema does not look at is the way out, if not all of it has been checked. -/
theorem escapes_of_not_isCheckedBeyond (h : ¬ IsCheckedBeyond document) (cause : Misuse) :
    Escape document (.misuse cause) := by
  by_contra hnone
  refine h ⟨fun T ref v hreaches hlooks htarget => ?_, fun fs items hreaches hshape hget item hitem => ?_⟩
  · by_contra hunchecked
    exact hnone (.target hreaches hlooks htarget hunchecked)
  · by_contra hunchecked
    exact hnone (.item hreaches hshape hget hitem hunchecked)

theorem escapes_of_not_isWritable (h : document.isWritable ≠ true) :
    Escape document .tooManyDigits := by
  obtain ⟨x, hpart, hlong⟩ := Json.exists_number_of_not_isWritable h
  exact .number hpart hlong

/-- **A schema that compiling meets** fails under a title or escapes. -/
theorem Fault.named_or_escapes (ho : options.RanksByNumber) (hrecords : resolver.Records document)
    (hreaches : Reaches document document S) (hS : IsCheckedBeyond document → IsSchema S)
    (h : Fault options resolver S e) : e.IsNamed ∨ Escape document e := by
  obtain (hnamed | hdigits | hmisuse) | hescapes := h.usual_or_escapes hreaches
  · exact .inl hnamed
  · refine .inr (hdigits ▸ escapes_of_not_isWritable fun hwritable => ?_)
    refine h.ne_tooManyDigits (fun text v hfind => ?_) (isWritable_of_reaches hwritable hreaches) hdigits
    exact Json.isWritable_of_part (part_of_targetOf (hrecords.find? hfind)) hwritable
  · by_cases hbeyond : IsCheckedBeyond document
    · exact .inr (h.escapes hbeyond ho hrecords hreaches (hS hbeyond) hmisuse)
    · obtain ⟨cause, rfl⟩ := hmisuse
      exact .inr (escapes_of_not_isCheckedBeyond hbeyond cause)
  · exact .inr hescapes

end Schema

/-- The check of a document that is a schema fails only where its dialect has more to say. -/
theorem Metaschema.checkIn_error {dialects : Dialects} {v : Json} {e : Failure}
    (hcheck : check v = .ok []) (h : checkIn dialects v = .error e) :
    e = .tooManyDigits ∧ v.isWritable ≠ true := by
  obtain ⟨hdialect, hreports, -⟩ := check_eq_ok_iff.1 hcheck
  unfold checkIn at h
  rw [hdialect] at h
  dsimp only [bind, Except.bind] at h
  cases hissues : issuesIn dialects v with
  | some found => simp [hissues, pure, Except.pure] at h
  | none =>
    rw [hissues] at h
    refine ⟨(Except.error.inj h).symm, fun hwritable => ?_⟩
    unfold issuesIn at hissues
    split at hissues
    · rename_i dialect _
      have hsome := dialect.reports v hwritable
      rw [hissues] at hsome
      cases hsome
    · rw [if_pos hreports] at hissues
      cases hissues

namespace Compiler

open Schema (Escape IsCheckedBeyond IsGrounded Reaches Room depthLimit)

variable {options : Options} {schema : Json} {e : Failure} {s : Session}

theorem compileDocument_fails (ho : options.RanksByNumber) (hS : IsSchema schema)
    (h : compileDocument options (Session.new [schema]) = .error e s) :
    e.IsNamed ∨ Escape schema e := by
  obtain ⟨resolver, hresolve, hrun⟩ | ⟨e', resolver, hresolve, hrun⟩ :=
    compileDocument_run options schema
  · have hrecords := Resolver.records_resolve hresolve
    have hruns : Session.Runs False ("" ≠ "") (fun e => e.IsNamed ∨ Escape schema e)
        (Schema.Visited schema schema "" (prepared resolver))
        (Schema.visit options (depthLimit [schema, schema]) schema "") (prepared resolver) := by
      -- a schema that is entered is checked, and has room as long as none contains itself
      refine Schema.runs_visit_within (P := fun depth S s => s.resolver.Records schema ∧
          Reaches schema schema S ∧ (IsCheckedBeyond schema → IsSchema S) ∧
          (IsGrounded schema → Room schema depth S s))
        options (fun S s hP => ?_) (fun depth S S' s s' hP henters => ?_) False.elim
        (fun depth S s e hP hfault => ?_) _ "" (orderly_prepared resolver) ?_
      · obtain ⟨-, -, -, hroom⟩ := hP
        by_contra hescapes
        refine absurd (hroom fun S hreaches hself => ?_) (Schema.not_room_zero S s)
        exact hescapes (.inr (.endless hreaches hself))
      · obtain ⟨hrecords, hreaches, hS, hroom⟩ := hP
        have hinside := henters.inside hrecords
        exact ⟨henters.resolver ▸ hrecords, hreaches.tail hinside,
          fun hbeyond => Schema.isSchema_of_mem_inside hbeyond hreaches (hS hbeyond) hinside,
          fun hgrounded => (hroom hgrounded).enter hgrounded henters⟩
      · obtain ⟨hrecords, hreaches, hS, -⟩ := hP
        exact hfault.named_or_escapes ho hrecords hreaches hS
      · exact ⟨hrecords, .refl schema schema, fun _ => hS,
          fun _ => Schema.room_prepared hrecords le_rfl⟩
    exact ((Work.leads_iff.1 hruns).2 e s (hrun.symm.trans h)).2
  · obtain ⟨rfl, -⟩ := EStateM.Result.error.inj (hrun.symm.trans h)
    obtain ⟨path, ref, href, hfault⟩ := Resolver.resolve_error hresolve
    cases hfault with
    | remote _ => exact .inl rfl
    | foreign _ => exact .inl rfl
    | broken hfollow =>
      obtain (hnamed | ⟨rfl, hlong⟩) | ⟨segment, hsegment, hdigits, rfl⟩ :=
        Resolver.follow_error hfollow
      · exact .inl hnamed
      · exact .inr (Schema.escapes_of_not_isWritable hlong)
      · exact .inr (.digits href hsegment hdigits)

/-- **Failures have names.** Compiling a document that the metaschema has nothing against fails under
    a title, or escapes for a reason that lies in the document. -/
theorem compile_fails_by_name (ho : options.RanksByNumber)
    (hcheck : Metaschema.check schema = .ok []) (h : compile options schema = .error e) :
    e.IsNamed ∨ Escape schema e := by
  obtain ⟨e', hissues, hrun⟩ | ⟨issues, -, -, hrun⟩ | hrun := compile_cases options schema
  · obtain rfl := Except.error.inj (h.symm.trans hrun)
    obtain ⟨rfl, hlong⟩ := Metaschema.checkIn_error hcheck hissues
    exact .inr (Schema.escapes_of_not_isWritable hlong)
  · obtain rfl := Except.error.inj (h.symm.trans hrun)
    exact .inl rfl
  · rw [hrun, outcome] at h
    split at h
    · cases h
    · rename_i e' s hdocument
      obtain rfl := Except.error.inj h
      exact compileDocument_fails ho (Metaschema.isSchema_of_check hcheck) hdocument

/-- A range without integers. -/
def emptyRange : Json :=
  .obj [("type", .str "integer"), ("minimum", .num (.whole 2)), ("maximum", .num (.whole 1))]

/-- A reference to a range without integers. -/
def rangeReference : Json :=
  .obj [("$ref", .str "#/definitions/n")]

/-- An object with a property from a range without integers. -/
def hopeless : Json :=
  .obj [("properties", .obj [("a", rangeReference)]), ("definitions", .obj [("n", emptyRange)])]

theorem hopeless_fails_by_name :
    ∃ e, compile .standard hopeless = .error e ∧ (e.IsNamed ∨ Escape hopeless e) := by
  have hfails : (match compile .standard hopeless with
      | .ok _ => false
      | .error _ => true) = true := by
    decide +kernel
  cases hrun : compile .standard hopeless with
  | ok t => simp [hrun] at hfails
  | error e =>
    have hcheck : Metaschema.check hopeless = .ok [] :=
      Metaschema.checkIn_of_isSchema _ rfl (by decide +kernel) (List.isEmpty_iff.1 (by decide +kernel))
    exact ⟨e, rfl, compile_fails_by_name ⟨[], rfl, by simp⟩ hcheck hrun⟩

/-- A constant. -/
def constantOf (v : Json) : Json :=
  .obj [("const", v)]

/-- A constant of too many digits fails without a title, whatever the options are. -/
theorem compile_longConstant (options : Options) {x : Number} (hlong : x.isWritable = false) :
    compile options (constantOf (.num x)) = .error .tooManyDigits := by
  have hcheck : Metaschema.checkIn options.dialects (constantOf (.num x)) = .ok [] := by
    rw [Metaschema.checkIn_eq_check rfl]
    exact Metaschema.check_eq_ok_iff.2 ⟨rfl, rfl, rfl⟩
  have hconst : Schema.checkWritable (.num x) = .error .tooManyDigits :=
    if_neg (by simp [Json.isWritable, hlong])
  have hsites : Resolver.sites (constantOf (.num x)) = [] := rfl
  obtain ⟨depth, hdocument⟩ := compileDocument_of_sites options hsites
  have hvisit : Schema.visitWith (Schema.visit options depth) options (constantOf (.num x)) "" =
      Schema.visitConst ⟨[("const", .num x)], "", "root"⟩ := rfl
  have hread : Schema.Site.keyword ⟨[("const", .num x)], "", "root"⟩ "const" = .num x := rfl
  rw [compile_of_check hcheck, hdocument, hvisit, Schema.visitConst, hread, hconst]
  rfl

/-- A pattern that asks for at least two and at most one of something. -/
def backwards : Json :=
  .obj [("type", .str "string"), ("pattern", .str "^a\x7b2,1\x7d$")]

/-- Such a pattern fails without a title, though the metaschema has nothing against it. -/
theorem backwards_has_no_name : Metaschema.check backwards = .ok [] ∧
    ∃ e, compile .standard backwards = .error e ∧ ¬ e.IsNamed := by
  have hfails : (match compile .standard backwards with
      | .ok _ => false
      | .error e => e.title?.isNone) = true := by
    decide +kernel
  have hcheck : Metaschema.check backwards = .ok [] :=
    Metaschema.checkIn_of_isSchema _ rfl (by decide +kernel) (List.isEmpty_iff.1 (by decide +kernel))
  refine ⟨hcheck, ?_⟩
  cases hrun : compile .standard backwards with
  | ok t => simp [hrun] at hfails
  | error e =>
    rw [hrun] at hfails
    refine ⟨e, rfl, ?_⟩
    rw [Failure.IsNamed, Option.isNone_iff_eq_none.1 hfails]
    simp

end Compiler

end SchemaGrammar
