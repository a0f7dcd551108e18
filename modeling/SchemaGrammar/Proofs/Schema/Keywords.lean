import SchemaGrammar.Schema.Visit

set_option autoImplicit false

/-! # What the keywords of a schema hold

The parts of a schema that its shape makes count, read without failures: where a keyword holds
something else than it should, there is nothing to it. -/

namespace SchemaGrammar

namespace Schema

open Json (Fields)

variable {fields : Fields}

/-- What a schema has for its shape, as far as the shape's own keywords go. -/
def Shape.Needs (fields : Fields) : Shape → Prop
  | .ref => Fields.has fields "$ref" = true
  | .union => (given? fields "oneOf").isSome = true ∨ (given? fields "anyOf").isSome = true
  | .typeUnion => isList fields "type" = true
  | .enum => Fields.has fields "enum" = true
  | .allOf => Fields.has fields "allOf" = true
  | .tuple => isList fields "prefixItems" = true ∨ isList fields "items" = true
  | .array => Fields.has fields "items" = true ∧ isList fields "items" = false
  | .pattern => Fields.has fields "pattern" = true
  | .uuid => formatIs fields isUuidFormat = true
  | .formatString => formatIs fields isGrammarFormat = true
  | .primitive => isPrimitive fields = true
  | _ => True

theorem needs_shape (fields : Fields) : (shape fields).Needs fields := by
  have test {c : Prop} [Decidable c] {a b : Shape} (ha : c → a.Needs fields)
      (hb : ¬ c → b.Needs fields) : (if c then a else b).Needs fields :=
    iteInduction (motive := Shape.Needs fields) ha hb
  -- one step for each test, in the order of the tests
  unfold shape
  refine test (fun href => href) fun _ => ?_
  refine test (fun hunion => Bool.or_eq_true_iff.1 hunion) fun _ => ?_
  refine test (fun htypes => htypes) fun _ => ?_
  refine test (fun _ => trivial) fun _ => ?_
  refine test (fun henum => henum) fun _ => ?_
  refine test (fun _ => trivial) fun _ => ?_
  refine test (fun hallOf => (Bool.and_eq_true_iff.1 hallOf).2) fun _ => ?_
  refine test (fun htuple => Bool.or_eq_true_iff.1 (Bool.and_eq_true_iff.1 htuple).2) fun hnone => ?_
  refine test (fun harray => ?_) fun _ => ?_
  · obtain ⟨hallows, hhas⟩ := Bool.and_eq_true_iff.1 harray
    exact ⟨hhas, by simp_all⟩
  refine test (fun hpattern => (Bool.and_eq_true_iff.1 hpattern).2) fun _ => ?_
  refine test (fun huuid => (Bool.and_eq_true_iff.1 huuid).2) fun _ => ?_
  refine test (fun hformat => (Bool.and_eq_true_iff.1 hformat).2) fun _ => ?_
  iterate 3 refine test (fun _ => trivial) fun _ => ?_
  exact test (fun hprimitive => hprimitive) fun _ => trivial

theorem Shape.Needs.of_eq {r : Shape} (h : shape fields = r) : r.Needs fields :=
  h ▸ needs_shape fields

/-- A keyword of a schema; what is not there is null. -/
def keyword (fields : Fields) (key : String) : Json :=
  (Fields.get? fields key).getD .null

/-- A natural number, as a count has to be. -/
def natural? : Json → Option Nat
  | .num (.whole (.ofNat n)) => some n
  | _ => none

/-- The counts that two keywords give, if they are naturals; the greatest one may be missing. -/
def counts? (fields : Fields) (minKey maxKey : String) : Option (Nat × Option Nat) :=
  match natural? (orElse (Fields.get? fields minKey) (.num (.whole 0))), keyword fields maxKey with
  | some low, .null => some (low, none)
  | some low, high => (natural? high).map fun most => (low, some most)
  | none, _ => none

/-- The values that a keyword lists. -/
def valuesOf (v : Json) : List Json :=
  match elements v with
  | .ok values => values
  | .error _ => []

/-- The alternatives of a union. -/
def choices (fields : Fields) : List Json :=
  valuesOf (match given? fields "oneOf" with
    | some v => v
    | none => keyword fields "anyOf")

/-- A schema with each of its types alone. -/
def typeChoices (fields : Fields) : List Json :=
  (valuesOf (keyword fields "type")).map fun t => .obj (Fields.set fields "type" t)

/-- The items of a tuple. -/
def tupleItems (fields : Fields) : List Json :=
  match Fields.get? fields "prefixItems" with
  | some (.arr items) => items
  | _ => match Fields.get? fields "items" with
    | some (.arr items) => items
    | _ => []

/-- The properties that an object declares. -/
def properties (fields : Fields) : Fields :=
  match declaredProperties fields with
  | .ok declared => declared
  | .error _ => []

/-- The schema of a declared property; the last one of its name counts. -/
def propertySchema (fields : Fields) (key : String) : Json :=
  ((Assoc.ofPairs (properties fields)).lookup key).getD .null

/-- The names that an object requires. -/
def required (fields : Fields) : List String :=
  match requiredNames fields with
  | .ok names => names
  | .error _ => []

/-- The names of the declared properties in the order in which they are written. -/
def propertyNames (options : Options) (fields : Fields) : List String :=
  match options.sortProperties ((Assoc.ofPairs (properties fields)).map Prod.fst) with
  | .ok names => names
  | .error _ => []

/-- The bounds of an integer. -/
def boundsOf (fields : Fields) : Except Failure Bounds :=
  boundKeys.foldlM (addBound (.obj fields) fields) ⟨none, none⟩

/-- What a reference points at. -/
def targetOf (document : Json) (ref : String) : Option Json :=
  match Pointer.follow ref (Pointer.segments ref) document with
  | .ok (_, v) => some v
  | .error _ => none

/-- What the reference of a schema points at. -/
def referenceTarget (document : Json) (fields : Fields) : Option Json :=
  match keyword fields "$ref" with
  | .str ref => targetOf document ref
  | _ => none

end Schema

end SchemaGrammar
