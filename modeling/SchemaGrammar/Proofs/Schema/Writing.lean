import SchemaGrammar.Proofs.Json.Writable
import SchemaGrammar.Proofs.Schema.Parts

set_option autoImplicit false

/-! # Documents that can be written

A document can be written as long as no number in it has too many digits. Then so can all schemas
that compiling it meets, and no failure is about digits (`Fault.ne_tooManyDigits`). -/

namespace SchemaGrammar

open Json (Fields Part)

namespace Json

/-- The parts of a value that can be written can be written. -/
theorem isWritable_of_part {v w : Json} (h : Part w v) (hv : v.isWritable = true) :
    w.isWritable = true := by
  induction h with
  | refl => exact hv
  | item hmem _ ih => exact ih (itemsWritable_iff.1 hv _ hmem)
  | field hmem _ ih => exact ih (fieldsWritable_iff.1 hv _ hmem)

mutual

/-- Only numbers keep a value from being written. -/
theorem isWritable_of_numbers : (v : Json) → (∀ x, Part (.num x) v → x.isWritable = true) →
    v.isWritable = true
  | .num x, h => h x .refl
  | .arr items, h => itemsWritable_of_numbers items fun _ hv x hx => h x (.item hv hx)
  | .obj fields, h => fieldsWritable_of_numbers fields fun _ hfield x hx => h x (.field hfield hx)
  | .null, _ | .bool _, _ | .str _, _ => rfl

theorem itemsWritable_of_numbers : (items : List Json) →
    (∀ v ∈ items, ∀ x, Part (.num x) v → x.isWritable = true) → itemsWritable items = true
  | [], _ => rfl
  | v :: rest, h => by
    rw [itemsWritable, isWritable_of_numbers v (h v List.mem_cons_self),
      itemsWritable_of_numbers rest fun w hw => h w (List.mem_cons_of_mem _ hw)]
    rfl

theorem fieldsWritable_of_numbers : (fields : List (String × Json)) →
    (∀ field ∈ fields, ∀ x, Part (.num x) field.2 → x.isWritable = true) →
      fieldsWritable fields = true
  | [], _ => rfl
  | (key, v) :: rest, h => by
    rw [fieldsWritable, isWritable_of_numbers v (h (key, v) List.mem_cons_self),
      fieldsWritable_of_numbers rest fun field hfield => h field (List.mem_cons_of_mem _ hfield)]
    rfl

end

/-- What cannot be written has a number in it that cannot. -/
theorem exists_number_of_not_isWritable {v : Json} (h : v.isWritable ≠ true) :
    ∃ x, Part (.num x) v ∧ x.isWritable = false := by
  by_contra hnone
  refine h (isWritable_of_numbers v fun x hx => ?_)
  by_contra hlong
  exact hnone ⟨x, hx, Bool.not_eq_true _ ▸ hlong⟩

theorem isWritable_set {fields : Fields} {key : String} {v : Json}
    (h : (Json.obj fields).isWritable = true) (hv : v.isWritable = true) :
    (Json.obj (Fields.set fields key v)).isWritable = true := by
  refine fieldsWritable_iff.2 fun x hx => ?_
  rcases Assoc.mem_of_mem_set hx with hold | rfl
  · exact fieldsWritable_iff.1 h x hold
  · exact hv

end Json

namespace Schema

open Json (isWritable_of_part)

variable {document S w : Json} {fields : Fields} {key : String} {options : Options}
variable {resolver : Resolver} {e : Failure}

/-! ## Schemas inside -/

theorem isWritable_keyword (h : (Json.obj fields).isWritable = true) (key : String) :
    (keyword fields key).isWritable = true := by
  unfold keyword
  cases hget : Fields.get? fields key with
  | none => rfl
  | some v => exact Json.isWritable_of_get? h hget

theorem isWritable_of_part_or_text (h : Part w S ∨ ∃ s, w = .str s) (hS : S.isWritable = true) :
    w.isWritable = true := by
  rcases h with h | ⟨s, rfl⟩
  · exact isWritable_of_part h hS
  · rfl

theorem isWritable_of_mem_inside (hdocument : document.isWritable = true)
    (hS : S.isWritable = true) (h : w ∈ inside document S) : w.isWritable = true := by
  cases S with
  | obj fields =>
    cases comesFrom_of_mem_inside h with
    | part hpart => exact isWritable_of_part hpart hS
    | document hpart => exact isWritable_of_part hpart hdocument
    | text s => rfl
    | typed hget ht =>
      exact Json.isWritable_set hS (isWritable_of_part ((Part.item ht .refl).trans (part_of_get? hget)) hS)
  | _ => simp [inside] at h

/-- All schemas that compiling a document meets can be written if the document can. -/
theorem isWritable_of_reaches (hdocument : document.isWritable = true)
    (h : Reaches document document S) : S.isWritable = true := by
  induction h with
  | refl => exact hdocument
  | tail _ hstep ih => exact isWritable_of_mem_inside hdocument ih hstep

/-! ## Failures -/

theorem lookUp_ne_tooManyDigits {ref : Json} (href : ref.isWritable = true)
    (h : resolver.lookUp ref = .error e) : e ≠ .tooManyDigits := by
  have hraised : (Failure.unresolvedReference ref).raised = .unresolvedReference ref :=
    Failure.raised_of_isWritable fun v hv => List.mem_singleton.1 hv ▸ href
  cases ref with
  | arr _ | obj _ => exact Except.error.inj h ▸ by simp
  | str text =>
    unfold Resolver.lookUp at h
    dsimp only [checkKey, bind, Except.bind] at h
    split at h
    · cases h
    · rw [← Except.error.inj h, hraised]
      simp
  | _ =>
    rw [← Except.error.inj h, hraised]
    simp

theorem forM_checkWritable_ne_error {values : List Json} (h : ∀ v ∈ values, v.isWritable = true) :
    values.forM checkWritable ≠ .error e := by
  intro herror
  obtain ⟨⟨v, hv, hlong⟩, -⟩ := forM_checkWritable_eq_error herror
  rw [h v hv] at hlong
  cases hlong

theorem isWritable_of_elements {v : Json} {values : List Json} (hv : v.isWritable = true)
    (h : elements v = .ok values) (hw : w ∈ values) : w.isWritable = true := by
  refine isWritable_of_part_or_text (part_of_mem_valuesOf ?_) hv
  rwa [valuesOf, h]

theorem ValueFault.ne_tooManyDigits (hS : S.isWritable = true) (h : ValueFault S e) :
    e ≠ .tooManyDigits := by
  cases h with
  | kind h => exact (misuses_fieldsFor _ _ e h).ne_tooManyDigits
  | properties _ h => exact (misuses_declaredProperties _ e h).ne_tooManyDigits
  | constants _ _ h => exact (misuses_elements _ e h).ne_tooManyDigits
  | digits hvalue hget hvalues h =>
    cases S with
    | obj fields =>
      obtain rfl := Except.ok.inj hvalue
      refine absurd h (forM_checkWritable_ne_error fun w hw => ?_)
      exact isWritable_of_elements (Json.isWritable_of_get? hS hget) hvalues hw
    | _ => cases hvalue

theorem PartFault.ne_tooManyDigits
    (hfound : ∀ text v, resolver.find? text = some v → v.isWritable = true)
    (hS : S.isWritable = true) (h : PartFault resolver S e) : e ≠ .tooManyDigits := by
  cases h with
  | search h => exact (misuses_containsText _ _ e h).ne_tooManyDigits
  | field _ h => exact (misuses_fieldOf _ _ e h).ne_tooManyDigits
  | target href h =>
    cases S with
    | obj fields => exact lookUp_ne_tooManyDigits (Except.ok.inj href ▸ isWritable_keyword hS "$ref") h
    | _ => cases href
  | value _ hlook h =>
    obtain ⟨text, -, hfind⟩ := Resolver.lookUp_eq_ok hlook
    exact h.ne_tooManyDigits (hfound text _ hfind)
  | plain _ h => exact h.ne_tooManyDigits hS

theorem BranchFault.ne_tooManyDigits
    (hfound : ∀ text v, resolver.find? text = some v → v.isWritable = true)
    (hS : S.isWritable = true) (h : BranchFault resolver S e) : e ≠ .tooManyDigits := by
  cases h with
  | search h => exact (misuses_containsText _ _ e h).ne_tooManyDigits
  | field _ h => exact (misuses_fieldOf _ _ e h).ne_tooManyDigits
  | parts _ _ h => exact (misuses_elements _ e h).ne_tooManyDigits
  | part hpart h =>
    exact h.ne_tooManyDigits hfound (isWritable_of_part_or_text (part_of_mem_branchParts hpart) hS)

theorem boundsOf_ne_tooManyDigits (hS : (Json.obj fields).isWritable = true)
    (h : boundsOf fields = .error e) : e ≠ .tooManyDigits := by
  obtain ⟨key, -, v, hget, ⟨rfl, -⟩ | rfl⟩ := boundsOf_eq_error h
  · simp
  · rw [Failure.raised_of_isWritable fun w hw => ?_]
    · simp
    · rcases List.mem_pair.1 hw with rfl | rfl
      · exact Json.isWritable_of_get? hS hget
      · exact hS

/-- **A schema that can be written** does not fail for its digits, if what references point at can
    be written, too. -/
theorem Fault.ne_tooManyDigits
    (hfound : ∀ text v, resolver.find? text = some v → v.isWritable = true)
    (hS : S.isWritable = true) (h : Fault options resolver S e) : e ≠ .tooManyDigits := by
  have hraised (e : Failure) (hne : e ≠ .tooManyDigits) (hshown : e.shownValues = [S]) :
      e.raised ≠ .tooManyDigits := by
    rwa [Failure.raised_of_isWritable]
    intro v hv
    rw [hshown] at hv
    exact List.mem_singleton.1 hv ▸ hS
  cases h with
  | unrecognized => exact hraised _ (by simp) rfl
  | counts => exact hraised _ (by simp) rfl
  | range => exact hraised _ (by simp) rfl
  | reference _ h => exact lookUp_ne_tooManyDigits (isWritable_keyword hS "$ref") h
  | choices _ h => exact (misuses_elements _ e h).ne_tooManyDigits
  | types _ h => exact (misuses_elements _ e h).ne_tooManyDigits
  | const _ h =>
    have hlong := (checkWritable_eq_error h).1
    rw [isWritable_keyword hS "const"] at hlong
    cases hlong
  | constants _ h => exact (misuses_elements _ e h).ne_tooManyDigits
  | digits _ hvalues h =>
    refine absurd h (forM_checkWritable_ne_error fun w hw => ?_)
    exact isWritable_of_elements (isWritable_keyword hS "enum") hvalues hw
  | properties _ h => exact (misuses_declaredProperties _ e h).ne_tooManyDigits
  | required _ h => exact (misuses_requiredNames _ e h).ne_tooManyDigits
  | order h => exact (misuses_sortProperties _ _ e h).ne_tooManyDigits
  | branches _ h => exact (misuses_elements _ e h).ne_tooManyDigits
  | branch _ hbranch h =>
    exact h.ne_tooManyDigits hfound (isWritable_of_part_or_text (part_of_mem_keyword hbranch) hS)
  | itemCounts _ h => exact (Grammar.fails_separatedRepetition _ _ _ _ e h).ne_tooManyDigits
  | lengths _ h => exact (Grammar.fails_repetition _ _ _ e h).ne_tooManyDigits
  | patternKind => simp
  | pattern _ _ h => cases h <;> simp
  | bounds _ h => exact boundsOf_ne_tooManyDigits hS h

end Schema

end SchemaGrammar
