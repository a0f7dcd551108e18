import SchemaGrammar.Proofs.Rules.Patterns
import SchemaGrammar.Proofs.Schema.Inside
import SchemaGrammar.Proofs.Schema.Orderly

set_option autoImplicit false

/-! # How schemas fail

What compiling a schema may fail with by itself, apart from the schemas inside it: each way to fail
is a constructor of `Fault`, with what has to be wrong for it. What holds of all failures of a
compilation is shown for these, one case each. -/

namespace SchemaGrammar

/-- What a reference points at, if it is a text that has been recorded. -/
def Resolver.lookUp (r : Resolver) (ref : Json) : Except Failure Json := do
  Schema.checkKey ref
  match ref with
  | .str text => match r.find? text with
    | some v => .ok v
    | none => .error (Failure.unresolvedReference ref).raised
  | _ => .error (Failure.unresolvedReference ref).raised

theorem Resolver.lookUp_of_checkKey {r : Resolver} {ref : Json} {e : Failure}
    (h : Schema.checkKey ref = .error e) : r.lookUp ref = .error e := by
  cases ref with
  | arr _ | obj _ => exact congrArg Except.error (Except.error.inj h)
  | _ => cases h

theorem Resolver.lookUp_eq_ok {r : Resolver} {ref v : Json} (h : r.lookUp ref = .ok v) :
    ∃ text, ref = .str text ∧ r.find? text = some v := by
  cases ref with
  | str text =>
    unfold Resolver.lookUp at h
    dsimp only [Schema.checkKey, bind, Except.bind] at h
    cases hfind : r.find? text with
    | some w =>
      rw [hfind] at h
      exact ⟨text, rfl, hfind.trans (congrArg some (Except.ok.inj h))⟩
    | none =>
      rw [hfind] at h
      cases h
  | _ => cases h

theorem Session.target_run (ref : Json) (s : Session) :
    Session.target ref s = Session.orFail (s.resolver.lookUp ref) s := by
  cases ref with
  | str text =>
    change (match s.resolver.find? text with
      | some v => (pure v : CompileM Json)
      | none => throw (Failure.unresolvedReference (.str text)).raised) s = _
    unfold Resolver.lookUp
    dsimp only [Schema.checkKey, bind, Except.bind]
    cases s.resolver.find? text with
    | some v => rfl
    | none => rfl
  | _ => rfl

namespace Schema

open Json (Fields)

variable {options : Options} {resolver : Resolver}

/-! ## Ways to fail -/

/-- What taking the properties and constants of a value may fail with. -/
inductive ValueFault (value : Json) : Failure → Prop
  | kind {e} (h : fieldsFor "get" value = .error e) : ValueFault value e
  | properties {fields e} (hvalue : fieldsFor "get" value = .ok fields)
      (h : declaredProperties fields = .error e) : ValueFault value e
  | constants {fields v e} (hvalue : fieldsFor "get" value = .ok fields)
      (hget : Fields.get? fields "enum" = some v) (h : elements v = .error e) : ValueFault value e
  | digits {fields v values e} (hvalue : fieldsFor "get" value = .ok fields)
      (hget : Fields.get? fields "enum" = some v) (hvalues : elements v = .ok values)
      (h : values.forM checkWritable = .error e) : ValueFault value e

/-- What adding a part to a combined schema may fail with. -/
inductive PartFault (resolver : Resolver) (part : Json) : Failure → Prop
  | search {e} (h : containsText part "$ref" = .error e) : PartFault resolver part e
  | field {e} (hhas : containsText part "$ref" = .ok true) (h : fieldOf part "$ref" = .error e) :
      PartFault resolver part e
  | target {ref e} (href : fieldOf part "$ref" = .ok ref) (h : resolver.lookUp ref = .error e) :
      PartFault resolver part e
  | value {ref v e} (href : fieldOf part "$ref" = .ok ref) (hfound : resolver.lookUp ref = .ok v)
      (h : ValueFault v e) : PartFault resolver part e
  | plain {e} (hhas : containsText part "$ref" = .ok false) (h : ValueFault part e) :
      PartFault resolver part e

/-- What adding a branch to a combined schema may fail with. -/
inductive BranchFault (resolver : Resolver) (branch : Json) : Failure → Prop
  | search {e} (h : containsText branch "anyOf" = .error e) : BranchFault resolver branch e
  | field {e} (hhas : containsText branch "anyOf" = .ok true)
      (h : fieldOf branch "anyOf" = .error e) : BranchFault resolver branch e
  | parts {v e} (hhas : containsText branch "anyOf" = .ok true)
      (hv : fieldOf branch "anyOf" = .ok v) (h : elements v = .error e) : BranchFault resolver branch e
  | part {part e} (hpart : part ∈ branchParts branch) (h : PartFault resolver part e) :
      BranchFault resolver branch e

/-- What compiling a schema may fail with by itself. -/
inductive Fault (options : Options) (resolver : Resolver) : Json → Failure → Prop
  | unrecognized {S} : Fault options resolver S (Failure.unrecognized S).raised
  | reference {fields e} (hshape : shape fields = .ref)
      (h : resolver.lookUp (keyword fields "$ref") = .error e) :
      Fault options resolver (.obj fields) e
  | choices {fields e} (hshape : shape fields = .union)
      (h : elements (match given? fields "oneOf" with
        | some v => v
        | none => keyword fields "anyOf") = .error e) : Fault options resolver (.obj fields) e
  | types {fields e} (hshape : shape fields = .typeUnion)
      (h : elements (keyword fields "type") = .error e) : Fault options resolver (.obj fields) e
  | const {fields e} (hshape : shape fields = .const)
      (h : checkWritable (keyword fields "const") = .error e) : Fault options resolver (.obj fields) e
  | constants {fields e} (hshape : shape fields = .enum)
      (h : elements (keyword fields "enum") = .error e) : Fault options resolver (.obj fields) e
  | digits {fields values e} (hshape : shape fields = .enum)
      (hvalues : elements (keyword fields "enum") = .ok values)
      (h : values.forM checkWritable = .error e) : Fault options resolver (.obj fields) e
  | properties {fields e} (hshape : shape fields = .object)
      (h : declaredProperties fields = .error e) : Fault options resolver (.obj fields) e
  | required {fields e} (hshape : shape fields = .object) (h : requiredNames fields = .error e) :
      Fault options resolver (.obj fields) e
  | order {fields names e} (h : options.sortProperties names = .error e) :
      Fault options resolver (.obj fields) e
  | branches {fields e} (hshape : shape fields = .allOf)
      (h : elements (keyword fields "allOf") = .error e) : Fault options resolver (.obj fields) e
  | branch {fields branch e} (hshape : shape fields = .allOf)
      (hbranch : branch ∈ valuesOf (keyword fields "allOf")) (h : BranchFault resolver branch e) :
      Fault options resolver (.obj fields) e
  | counts {fields minKey maxKey fault} :
      Fault options resolver (.obj fields)
        (Failure.unsatisfiableCount (.obj fields) minKey maxKey fault).raised
  | itemCounts {fields rule e} (hshape : shape fields = .array)
      (h : Grammar.separatedRepetition rule "\",\" space"
        (orElse (Fields.get? fields "minItems") (.num (.whole 0)))
        (keyword fields "maxItems") = .error e)
      (hkind : ∀ fault, e ≠ .count fault) : Fault options resolver (.obj fields) e
  | lengths {fields char e} (hshape : shape fields = .boundedString)
      (h : Grammar.repetition char
        (orElse (Fields.get? fields "minLength") (.num (.whole 0)))
        (keyword fields "maxLength") = .error e)
      (hkind : ∀ fault, e ≠ .count fault) : Fault options resolver (.obj fields) e
  | patternKind {fields} (hshape : shape fields = .pattern)
      (hkind : ∀ pattern, keyword fields "pattern" ≠ .str pattern) :
      Fault options resolver (.obj fields)
        (.misuse (.lacks (keyword fields "pattern").kind "startswith"))
  | pattern {fields pattern e} (hshape : shape fields = .pattern)
      (hkeyword : keyword fields "pattern" = .str pattern) (h : Pattern.Fault pattern e) :
      Fault options resolver (.obj fields) e
  | bounds {fields e} (hshape : shape fields = .intRange) (h : boundsOf fields = .error e) :
      Fault options resolver (.obj fields) e
  | range {fields fault} :
      Fault options resolver (.obj fields) (Failure.unsatisfiableBounds (.obj fields) fault).raised

/-! ## References without a target -/

/-- What looking a reference up may fail with. -/
theorem lookUp_eq_error {ref : Json} {e : Failure} (h : resolver.lookUp ref = .error e) :
    e.IsOrdinary ∨
      e = .unresolvedReference ref ∧ ∀ text, ref = .str text → resolver.find? text = none := by
  have hraised (hnone : ∀ text, ref = .str text → resolver.find? text = none)
      (he : (Failure.unresolvedReference ref).raised = e) : e.IsOrdinary ∨
        e = .unresolvedReference ref ∧ ∀ text, ref = .str text → resolver.find? text = none := by
    obtain heq | heq := Failure.raised_eq (.unresolvedReference ref)
    · exact .inr ⟨he.symm.trans heq, hnone⟩
    · exact .inl (he.symm.trans heq ▸ Failure.isOrdinary_tooManyDigits)
  cases ref with
  | arr _ | obj _ =>
    obtain rfl := Except.error.inj h
    exact .inl (by simp [Failure.IsOrdinary, Failure.IsOfSchema])
  | str text =>
    unfold Resolver.lookUp at h
    dsimp only [checkKey, bind, Except.bind] at h
    cases hfind : resolver.find? text with
    | some v =>
      rw [hfind] at h
      cases h
    | none =>
      rw [hfind] at h
      refine hraised (fun other hother => ?_) (Except.error.inj h)
      rw [← Json.str.inj hother, hfind]
  | _ => exact hraised (fun text htext => absurd htext (by simp)) (Except.error.inj h)

/-- A reference that compiling a schema looks up. -/
inductive LooksUp : Json → Json → Prop
  | reference {fields} (hshape : shape fields = .ref) :
      LooksUp (.obj fields) (keyword fields "$ref")
  | part {fields branch part ref} (hshape : shape fields = .allOf)
      (hbranch : branch ∈ valuesOf (keyword fields "allOf")) (hpart : part ∈ branchParts branch)
      (href : fieldOf part "$ref" = .ok ref) : LooksUp (.obj fields) ref

theorem ValueFault.isOrdinary {value : Json} {e : Failure} (h : ValueFault value e) :
    e.IsOrdinary := by
  cases h with
  | kind h => exact (misuses_fieldsFor _ _ e h).isOrdinary
  | properties _ h => exact (misuses_declaredProperties _ e h).isOrdinary
  | constants _ _ h => exact (misuses_elements _ e h).isOrdinary
  | digits _ _ _ h =>
    exact (forM_checkWritable_eq_error h).2 ▸ Failure.isOrdinary_tooManyDigits

theorem PartFault.isOrdinary {part : Json} {e : Failure} (h : PartFault resolver part e) :
    e.IsOrdinary ∨ ∃ ref, fieldOf part "$ref" = .ok ref ∧ resolver.lookUp ref = .error e := by
  cases h with
  | search h => exact .inl ((misuses_containsText _ _ e h).isOrdinary)
  | field _ h => exact .inl ((misuses_fieldOf _ _ e h).isOrdinary)
  | target href h => exact .inr ⟨_, href, h⟩
  | value _ _ h => exact .inl h.isOrdinary
  | plain _ h => exact .inl h.isOrdinary

theorem BranchFault.isOrdinary {branch : Json} {e : Failure} (h : BranchFault resolver branch e) :
    e.IsOrdinary ∨ ∃ part ∈ branchParts branch, ∃ ref,
      fieldOf part "$ref" = .ok ref ∧ resolver.lookUp ref = .error e := by
  cases h with
  | search h => exact .inl ((misuses_containsText _ _ e h).isOrdinary)
  | field _ h => exact .inl ((misuses_fieldOf _ _ e h).isOrdinary)
  | parts _ _ h => exact .inl ((misuses_elements _ e h).isOrdinary)
  | part hpart h => exact h.isOrdinary.imp_right fun hlook => ⟨_, hpart, hlook⟩

/-- A bound fails by itself: it is too large, or no number that an integer is compared with. -/
theorem boundsOf_eq_error {fields : Fields} {e : Failure} (h : boundsOf fields = .error e) :
    ∃ key ∈ boundKeys, ∃ v, Fields.get? fields key = some v ∧
      ((e = .misuse .tooLarge ∧ ∃ n, v = .num (.whole n) ∧ (Number.whole n).fitsDouble = false) ∨
        e = (Failure.invalidBound (.obj fields) key v).raised) := by
  obtain ⟨b, key, hkey, h⟩ := Work.except_foldlM_error h
  unfold addBound at h
  split at h
  · cases h
  · rename_i v hget
    refine ⟨key, hkey, v, hget, ?_⟩
    rcases Work.except_bind_eq_error.1 h with hvalue | ⟨n, -, hlast⟩
    · unfold boundValue at hvalue
      split at hvalue
      · rename_i x
        split_ifs at hvalue with hfits hfinite
        · refine .inl ⟨(Except.error.inj hvalue).symm, ?_⟩
          cases x with
          | whole n => exact ⟨n, rfl, by simpa using hfits⟩
          | double x => cases hfits
        · exact .inr (Except.error.inj hvalue).symm
      · exact .inr (Except.error.inj hvalue).symm
    · cases hlast

/-- A schema fails in an ordinary way, or a reference that it looks up has not been recorded. -/
theorem Fault.isOrdinary {S : Json} {e : Failure} (h : Fault options resolver S e) :
    e.IsOrdinary ∨ ∃ ref, LooksUp S ref ∧ e = .unresolvedReference ref ∧
      ∀ text, ref = .str text → resolver.find? text = none := by
  have hsimple {e : Failure} (h : e.IsOrdinary) : e.IsOrdinary ∨ ∃ ref, LooksUp S ref ∧
      e = .unresolvedReference ref ∧ ∀ text, ref = .str text → resolver.find? text = none := .inl h
  cases h with
  | unrecognized =>
    exact hsimple (Failure.IsOrdinary.raised (by simp [Failure.IsOrdinary, Failure.IsOfSchema]))
  | reference hshape h =>
    exact (lookUp_eq_error h).imp_right fun hnone => ⟨_, .reference hshape, hnone⟩
  | choices _ h => exact hsimple ((misuses_elements _ e h).isOrdinary)
  | types _ h => exact hsimple ((misuses_elements _ e h).isOrdinary)
  | const _ h => exact hsimple ((checkWritable_eq_error h).2 ▸ Failure.isOrdinary_tooManyDigits)
  | constants _ h => exact hsimple ((misuses_elements _ e h).isOrdinary)
  | digits _ _ h =>
    exact hsimple ((forM_checkWritable_eq_error h).2 ▸ Failure.isOrdinary_tooManyDigits)
  | properties _ h => exact hsimple ((misuses_declaredProperties _ e h).isOrdinary)
  | required _ h => exact hsimple ((misuses_requiredNames _ e h).isOrdinary)
  | order h => exact hsimple ((misuses_sortProperties _ _ e h).isOrdinary)
  | branches _ h => exact hsimple ((misuses_elements _ e h).isOrdinary)
  | branch hshape hbranch h =>
    rcases h.isOrdinary with hordinary | ⟨part, hpart, ref, href, h⟩
    · exact hsimple hordinary
    · exact (lookUp_eq_error h).imp_right fun hnone =>
        ⟨ref, .part hshape hbranch hpart href, hnone⟩
  | counts =>
    exact hsimple (Failure.IsOrdinary.raised (by simp [Failure.IsOrdinary, Failure.IsOfSchema]))
  | itemCounts _ h => exact hsimple ((Grammar.fails_separatedRepetition _ _ _ _ e h).isOrdinary)
  | lengths _ h => exact hsimple ((Grammar.fails_repetition _ _ _ e h).isOrdinary)
  | patternKind => exact hsimple (by simp [Failure.IsOrdinary, Failure.IsOfSchema])
  | pattern _ _ h => exact hsimple (by cases h <;> simp [Failure.IsOrdinary, Failure.IsOfSchema])
  | bounds _ h =>
    obtain ⟨key, -, v, -, ⟨rfl, -⟩ | rfl⟩ := boundsOf_eq_error h
    · exact hsimple (by simp [Failure.IsOrdinary, Failure.IsOfSchema])
    · exact hsimple (Failure.IsOrdinary.raised (by simp [Failure.IsOrdinary, Failure.IsOfSchema]))
  | range =>
    exact hsimple (Failure.IsOrdinary.raised (by simp [Failure.IsOrdinary, Failure.IsOfSchema]))

/-- A schema is to blame for how it fails. -/
theorem Fault.isOfSchema {S : Json} {e : Failure} (h : Fault options resolver S e) :
    e.IsOfSchema := by
  rcases h.isOrdinary with hordinary | ⟨ref, -, rfl, -⟩
  · exact hordinary.1
  · simp [Failure.IsOfSchema]

end Schema

end SchemaGrammar
