import SchemaGrammar.Metaschema
import SchemaGrammar.Proofs.Json.Size
import SchemaGrammar.Proofs.Json.Writable
import SchemaGrammar.Proofs.Schema.Keywords
import SchemaGrammar.Proofs.Work

set_option autoImplicit false

/-! # What the metaschema asks of the schemas inside

Whether the metaschema has issues with a value is computed with a depth that bounds how far it goes
into the value. Any depth above the size gives the same issues (`schemaIssues_eq`), so being a
schema (`IsSchema`) can be read keyword by keyword: each meets its check (`isSchema_obj_iff`), and
the check of a list or an object is one of what is in it. -/

namespace SchemaGrammar

namespace Metaschema

open Json (Fields)

variable {again again' : Json → List Issue}

/-! ## Depth -/

mutual

/-- A check looks at no value that is larger than the one it is about. -/
theorem issues_congr : (check : Check) → (v : Json) →
    (∀ w, w.size ≤ v.size → again w = again' w) → issues again check v = issues again' check v
  | .all checks, v, h => by
    rw [issues, issues, issuesOfAll_congr checks v h]
  | .types _, v, _ | .minimum, v, _ | .exclusiveMinimum, v, _ | .minItems, v, _
  | .uniqueItems, v, _ | .enum _, v, _ => by
    cases v <;> rfl
  | .items check, .arr items, h => by
    rw [issues, issues]
    refine List.flatMap_congr fun x hx => ?_
    have hsize := Json.size_le_of_mem_items (List.fst_mem_of_mem_zipIdx hx)
    dsimp only
    rw [issues_congr check x.1 fun w hw => h w (by rw [Json.size]; omega)]
  | .properties checks, .obj fields, h => by
    rw [issues, issues]
    exact issuesOfFields_congr checks fields fun w hw => h w (by rw [Json.size]; omega)
  | .additionalProperties check, .obj fields, h => by
    rw [issues, issues]
    refine List.flatMap_congr fun x hx => ?_
    have hsize := Json.size_le_of_mem_fields hx
    dsimp only
    rw [issues_congr check x.2 fun w hw => h w (by rw [Json.size]; omega)]
  | .anyOf checks, v, h => by
    rw [issues, issues, holdsAny_congr checks v h]
  | .schema, v, h => by
    rw [issues, issues, h v le_rfl]
  | .items _, .null, _ | .items _, .bool _, _ | .items _, .num _, _ | .items _, .str _, _
  | .items _, .obj _, _ => rfl
  | .properties _, .null, _ | .properties _, .bool _, _ | .properties _, .num _, _
  | .properties _, .str _, _ | .properties _, .arr _, _ => rfl
  | .additionalProperties _, .null, _ | .additionalProperties _, .bool _, _
  | .additionalProperties _, .num _, _ | .additionalProperties _, .str _, _
  | .additionalProperties _, .arr _, _ => rfl

theorem issuesOfAll_congr : (checks : List Check) → (v : Json) →
    (∀ w, w.size ≤ v.size → again w = again' w) →
      issuesOfAll again checks v = issuesOfAll again' checks v
  | [], _, _ => rfl
  | check :: rest, v, h => by
    rw [issuesOfAll, issuesOfAll, issues_congr check v h, issuesOfAll_congr rest v h]

theorem issuesOfFields_congr : (checks : List (String × Check)) → (fields : Fields) →
    (∀ w, w.size ≤ Json.sizeOfFields fields → again w = again' w) →
      issuesOfFields again checks fields = issuesOfFields again' checks fields
  | [], _, _ => rfl
  | (key, check) :: rest, fields, h => by
    rw [issuesOfFields, issuesOfFields, issuesOfFields_congr rest fields h]
    cases hget : Fields.get? fields key with
    | none => rfl
    | some w =>
      have hsize := Json.size_le_of_get? hget
      simp only [issues_congr check w fun u hu => h u (by omega)]

theorem holdsAny_congr : (checks : List Check) → (v : Json) →
    (∀ w, w.size ≤ v.size → again w = again' w) → holdsAny again checks v = holdsAny again' checks v
  | [], _, _ => rfl
  | check :: rest, v, h => by
    rw [holdsAny, holdsAny, issues_congr check v h, holdsAny_congr rest v h]

end

/-- The metaschema asks something of the fields of a schema alone, which are smaller. -/
theorem issues_root_congr {v : Json} (h : ∀ w, w.size < v.size → again w = again' w) :
    issues again .root v = issues again' .root v := by
  simp only [Check.root, issues, issuesOfAll]
  congr 2
  cases v with
  | obj fields =>
    exact issuesOfFields_congr _ fields fun w hw => h w (by rw [Json.size]; omega)
  | _ => rfl

/-- The issues of a value, to whatever depth they are. -/
def allIssues (v : Json) : List Issue :=
  schemaIssues (v.size + 1) v

/-- **Enough depth.** A depth above the size makes no difference. -/
theorem schemaIssues_eq {depth : Nat} {v : Json} (h : v.size < depth) :
    schemaIssues depth v = allIssues v := by
  induction hsize : v.size using Nat.strong_induction_on generalizing depth v with
  | _ n ih =>
    cases depth with
    | zero => omega
    | succ depth =>
      rw [allIssues, schemaIssues, schemaIssues]
      refine issues_root_congr fun w hw => ?_
      have hless : w.size < depth := by omega
      rw [ih w.size (by omega) hless rfl, ih w.size (by omega) hw rfl]

/-- The issues of a schema are those of its keywords. -/
theorem allIssues_eq (v : Json) : allIssues v = issues allIssues .root v := by
  rw [allIssues, schemaIssues]
  exact issues_root_congr fun w hw => schemaIssues_eq hw

/-! ## Reading checks -/

/-- A value meets a check. -/
def Meets (check : Check) (v : Json) : Prop :=
  issues allIssues check v = []

/-- The metaschema has nothing against a value. -/
def IsSchema (v : Json) : Prop :=
  allIssues v = []

theorem issueUnless_eq_nil {holds : Bool} {v : Json} {keyword complaint : String} :
    issueUnless holds v keyword complaint = [] ↔ holds = true := by
  unfold issueUnless
  split_ifs with h
  · simp [h]
  · simp [h]

theorem below_eq_nil {step : String} {found : List Issue} : below step found = [] ↔ found = [] :=
  List.map_eq_nil_iff

section Checks

variable {check : Check} {checks : List Check} {v w : Json} {fields : Fields} {items : List Json}

theorem meets_all_iff : Meets (.all checks) v ↔ ∀ check ∈ checks, Meets check v := by
  rw [Meets, issues]
  induction checks with
  | nil => simp [issuesOfAll]
  | cons check rest ih => rw [issuesOfAll, List.append_eq_nil_iff, ih, List.forall_mem_cons, Meets]

theorem meets_anyOf_iff : Meets (.anyOf checks) v ↔ ∃ check ∈ checks, Meets check v := by
  rw [Meets, issues, issueUnless_eq_nil]
  induction checks with
  | nil => simp [holdsAny]
  | cons check rest ih =>
    rw [holdsAny, Bool.or_eq_true, ih, List.isEmpty_iff, List.exists_mem_cons_iff, Meets]

theorem meets_types_iff {names : List String} :
    Meets (.types names) v ↔ names.any (isType v) = true := by
  rw [Meets, issues, issueUnless_eq_nil]

theorem meets_items_iff : Meets (.items check) (.arr items) ↔ ∀ w ∈ items, Meets check w := by
  rw [Meets, issues, List.flatMap_eq_nil_iff]
  constructor
  · intro h w hw
    obtain ⟨i, hi⟩ := List.mem_iff_getElem?.1 hw
    exact below_eq_nil.1 (h (w, i) (List.mk_mem_zipIdx_iff_getElem?.2 hi))
  · intro h x hx
    exact below_eq_nil.2 (h x.1 (List.fst_mem_of_mem_zipIdx hx))

theorem meets_additionalProperties_iff :
    Meets (.additionalProperties check) (.obj fields) ↔ ∀ x ∈ fields, Meets check x.2 := by
  rw [Meets, issues, List.flatMap_eq_nil_iff]
  exact forall₂_congr fun x _ => below_eq_nil

theorem meets_properties_iff {named : List (String × Check)} :
    Meets (.properties named) (.obj fields) ↔
      ∀ x ∈ named, ∀ w, Fields.get? fields x.1 = some w → Meets x.2 w := by
  rw [Meets, issues]
  induction named with
  | nil => simp [issuesOfFields]
  | cons x rest ih =>
    rw [issuesOfFields, List.append_eq_nil_iff, ih, List.forall_mem_cons]
    refine and_congr_left fun _ => ?_
    cases Fields.get? fields x.1 with
    | none => simp
    | some w => simp [below_eq_nil, Meets]

theorem isSchema_iff : IsSchema v ↔ Meets .root v := by
  rw [IsSchema, allIssues_eq, Meets]

/-- An object is a schema if each keyword that it has meets its check. -/
theorem isSchema_obj_iff : IsSchema (.obj fields) ↔
    ∀ x ∈ Check.keywords, ∀ w, Fields.get? fields x.1 = some w → Meets x.2 w := by
  rw [isSchema_iff, Check.root, meets_all_iff, List.forall_mem_cons, List.forall_mem_singleton,
    meets_properties_iff, meets_types_iff]
  exact and_iff_right rfl

theorem IsSchema.meets {key : String} (h : IsSchema (.obj fields))
    (hkey : Check.keywords.lookup key = some check) (hget : Fields.get? fields key = some w) :
    Meets check w :=
  isSchema_obj_iff.1 h (key, check) (Assoc.mem_of_lookup hkey) w hget

/-- What is no object is a schema only if it is a truth value. -/
theorem IsSchema.cases (h : IsSchema v) : (∃ b, v = .bool b) ∨ ∃ fields, v = .obj fields := by
  rw [isSchema_iff, Check.root, meets_all_iff, List.forall_mem_cons, meets_types_iff] at h
  cases v with
  | bool b => exact .inl ⟨b, rfl⟩
  | obj fields => exact .inr ⟨fields, rfl⟩
  | _ => simp [isType] at h

theorem Meets.list (h : Meets .list v) : ∃ items, v = .arr items := by
  rw [Check.list, meets_types_iff] at h
  cases v with
  | arr items => exact ⟨items, rfl⟩
  | _ => simp [isType] at h

theorem Meets.schemaArray (h : Meets .schemaArray v) :
    ∃ items, v = .arr items ∧ ∀ w ∈ items, IsSchema w := by
  rw [Check.schemaArray, meets_all_iff] at h
  obtain ⟨items, rfl⟩ := Meets.list (h (.types ["array"]) (by simp))
  exact ⟨items, rfl, meets_items_iff.1 (h (.items .schema) (by simp))⟩

theorem Meets.schemas (h : Meets .schemas v) :
    ∃ fields, v = .obj fields ∧ ∀ x ∈ fields, IsSchema x.2 := by
  rw [Check.schemas, meets_all_iff, List.forall_mem_cons, List.forall_mem_singleton,
    meets_types_iff] at h
  cases v with
  | obj fields => exact ⟨fields, rfl, meets_additionalProperties_iff.1 h.2⟩
  | _ => simp [isType] at h

theorem Meets.string (h : Meets .string v) : ∃ s, v = .str s := by
  rw [Check.string, meets_types_iff] at h
  cases v with
  | str s => exact ⟨s, rfl⟩
  | _ => simp [isType] at h

theorem Meets.stringArray (h : Meets .stringArray v) :
    ∃ items, v = .arr items ∧ ∀ w ∈ items, ∃ s, w = .str s := by
  rw [Check.stringArray, meets_all_iff] at h
  obtain ⟨items, rfl⟩ := Meets.list (h (.types ["array"]) (by simp))
  exact ⟨items, rfl, fun w hw => Meets.string (meets_items_iff.1 (h (.items .string) (by simp)) w hw)⟩

theorem Meets.number (h : Meets .nonNegativeInteger v) : ∃ x, v = .num x := by
  rw [Check.nonNegativeInteger, meets_all_iff, List.forall_mem_cons, meets_types_iff] at h
  cases v with
  | num x => exact ⟨x, rfl⟩
  | _ => simp [isType] at h

end Checks

/-! ## Messages -/

section Messages

/-- All messages about a value are written that can be written itself. -/
def ReportsWritable (inside : Json → Bool) : Prop :=
  ∀ v, v.isWritable = true → inside v = true

variable {inside : Json → Bool}

mutual

/-- The messages about a value show it and the values in it, no others. -/
theorem canReport_of_isWritable (hinside : ReportsWritable inside) : (check : Check) → (v : Json) →
    v.isWritable = true → canReport again inside check v = true
  | .all checks, v, h => canReportAll_of_isWritable hinside checks v h
  | .items check, .arr items, h => List.all_eq_true.2 fun w hw =>
      canReport_of_isWritable hinside check w (Json.itemsWritable_iff.1 h w hw)
  | .properties checks, .obj fields, h => canReportFields_of_isWritable hinside checks fields h
  | .additionalProperties check, .obj fields, h => List.all_eq_true.2 fun x hx =>
      canReport_of_isWritable hinside check x.2 (Json.fieldsWritable_iff.1 h x hx)
  | .anyOf checks, v, h => by
    rw [canReport, canReportAny_of_isWritable hinside checks v h, h, Bool.or_true, Bool.and_true]
  | .schema, v, h => hinside v h
  | .types _, v, h | .minimum, v, h | .exclusiveMinimum, v, h | .minItems, v, h
  | .uniqueItems, v, h | .enum _, v, h => by
    simp [canReport, h]
  | .items _, .null, _ | .items _, .bool _, _ | .items _, .num _, _ | .items _, .str _, _
  | .items _, .obj _, _ => rfl
  | .properties _, .null, _ | .properties _, .bool _, _ | .properties _, .num _, _
  | .properties _, .str _, _ | .properties _, .arr _, _ => rfl
  | .additionalProperties _, .null, _ | .additionalProperties _, .bool _, _
  | .additionalProperties _, .num _, _ | .additionalProperties _, .str _, _
  | .additionalProperties _, .arr _, _ => rfl

theorem canReportAll_of_isWritable (hinside : ReportsWritable inside) :
    (checks : List Check) → (v : Json) → v.isWritable = true →
      canReportAll again inside checks v = true
  | [], _, _ => rfl
  | check :: rest, v, h => by
    rw [canReportAll, canReport_of_isWritable hinside check v h,
      canReportAll_of_isWritable hinside rest v h]
    rfl

theorem canReportFields_of_isWritable (hinside : ReportsWritable inside) :
    (checks : List (String × Check)) → (fields : Fields) → (Json.obj fields).isWritable = true →
      canReportFields again inside checks fields = true
  | [], _, _ => rfl
  | (key, check) :: rest, fields, h => by
    rw [canReportFields, canReportFields_of_isWritable hinside rest fields h, Bool.and_true]
    cases hget : Fields.get? fields key with
    | none => rfl
    | some w => exact canReport_of_isWritable hinside check w (Json.isWritable_of_get? h hget)

theorem canReportAny_of_isWritable (hinside : ReportsWritable inside) :
    (checks : List Check) → (v : Json) → v.isWritable = true →
      canReportAny again inside checks v = true
  | [], _, _ => rfl
  | check :: rest, v, h => by
    rw [canReportAny, canReport_of_isWritable hinside check v h,
      canReportAny_of_isWritable hinside rest v h, Bool.or_true]
    rfl

end

end Messages

theorem schemaReports_of_isWritable (depth : Nat) {v : Json} (h : v.isWritable = true) :
    schemaReports depth v = true := by
  induction depth generalizing v with
  | zero => rfl
  | succ depth ih => exact canReport_of_isWritable (fun _ => ih) _ _ h

/-! ## The check of a document -/

section Document

variable {dialects : Dialects} {v : Json}

/-- The check lets a document pass that the seventh draft has nothing against, and whose messages,
    those included that come to nothing, can be written. -/
theorem check_eq_ok_iff : check v = .ok [] ↔
    checkDialect v = .ok () ∧ schemaReports (v.size + 1) v = true ∧ IsSchema v := by
  have hdraft : issuesIn (fun _ => none) v =
      if schemaReports (v.size + 1) v then some (allIssues v) else none := by
    unfold issuesIn Dialects.of
    split
    · rename_i dialect hdialect
      split at hdialect <;> cases hdialect
    · rfl
  have hsorted : ((allIssues v).mergeSort fun a b => pathLe a.path b.path) = [] ↔ IsSchema v := by
    rw [IsSchema, ← List.length_eq_zero_iff, List.length_mergeSort, List.length_eq_zero_iff]
  unfold check checkIn
  rw [hdraft]
  cases checkDialect v with
  | error e => simp [bind, Except.bind]
  | ok _ =>
    cases schemaReports (v.size + 1) v with
    | false => simp [bind, Except.bind, throw, throwThe, MonadExceptOf.throw]
    | true => simpa [bind, Except.bind, pure, Except.pure] using hsorted

theorem isSchema_of_check (h : check v = .ok []) : IsSchema v :=
  (check_eq_ok_iff.1 h).2.2

/-- A document that names no dialect is checked against the seventh draft. -/
theorem checkIn_eq_check (h : v.get? "$schema" = none) : checkIn dialects v = check v := by
  have hnone (dialects : Dialects) : dialects.of v = none := by
    unfold Dialects.of
    rw [h]
  unfold check checkIn issuesIn
  rw [hnone, hnone]

/-- A schema passes that names no dialect and has no number of too many digits. -/
theorem checkIn_of_isSchema (dialects : Dialects) (hnone : v.get? "$schema" = none)
    (hwritable : v.isWritable = true) (h : IsSchema v) : checkIn dialects v = .ok [] := by
  rw [checkIn_eq_check hnone, check_eq_ok_iff]
  refine ⟨?_, schemaReports_of_isWritable _ hwritable, h⟩
  obtain ⟨b, rfl⟩ | ⟨fields, rfl⟩ := h.cases
  · rfl
  · have hhas : Fields.has fields "$schema" = false := by
      rw [Fields.has, show Fields.get? fields "$schema" = none from hnone]
      rfl
    simp [checkDialect, Schema.containsText, hhas, bind, Except.bind, pure, Except.pure]

end Document

end Metaschema

end SchemaGrammar
