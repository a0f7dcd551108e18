import Mathlib.Logic.Relation
import SchemaGrammar.Proofs.Json.Size
import SchemaGrammar.Proofs.Rules.Repetition
import SchemaGrammar.Proofs.Rules.Request
import SchemaGrammar.Proofs.Schema.Keywords

set_option autoImplicit false

/-! # The schemas inside a schema

A schema is compiled by way of the schemas inside it: its alternatives, the values of its
properties, its items, the target of its reference. `inside` lists them, and `Reaches` follows them
to any depth. On this rests what is said about whole documents: the fragment of schemas that have a
language (`Core`), which names of properties can be read (`HasReadableKeys`), and which schema the
root of the grammar stands for (`start`). -/

namespace SchemaGrammar

namespace Schema

open Json (Fields)
open RuleTable (HasPlainDigits)

/-! ## Combined schemas -/

/-- What a part of a combined schema stands for: the target of its reference, or itself. -/
def partValue (document part : Json) : Json :=
  match part with
  | .obj fields =>
    if Fields.has fields "$ref" then (referenceTarget document fields).getD .null else part
  | v => v

/-- The fields of a part of a combined schema. -/
def partFields (document part : Json) : Fields :=
  match partValue document part with
  | .obj fields => fields
  | _ => []

/-- The parts of a branch: its alternatives, or itself. -/
def branchParts (branch : Json) : List Json :=
  match branch with
  | .obj fields => if Fields.has fields "anyOf" then valuesOf (keyword fields "anyOf") else [branch]
  | v => [v]

/-- All parts of a combined schema. -/
def partsOf (fields : Fields) : List Json :=
  (valuesOf (keyword fields "allOf")).flatMap branchParts

/-- The JSON texts of the constants of a part. -/
def partConstants (document part : Json) : Option (List String) :=
  (Fields.get? (partFields document part) "enum").map fun v =>
    ((valuesOf v).map Json.compact).eraseDups

/-- The constants that all lists of constants in a combined schema share. -/
def sharedConstants (document : Json) (fields : Fields) : List String :=
  commonConstants ((partsOf fields).filterMap (partConstants document))

/-- The properties that a combined schema declares, as long as it is no choice of constants. -/
def combinedProperties (document : Json) (fields : Fields) : Fields :=
  if (sharedConstants document fields).isEmpty then
    (partsOf fields).flatMap fun part => properties (partFields document part)
  else []

/-! ## One step inside -/

/-- The schema of additional properties, if there is one to compile. -/
def additionalSchemas (fields : Fields) : List Json :=
  match keyword fields "additionalProperties" with
  | .obj [] => []
  | .obj inner => [.obj inner]
  | _ => []

/-- The schema of an array's items, if there is one to compile. -/
def itemSchemas (fields : Fields) : List Json :=
  match keyword fields "items" with
  | .bool _ => []
  | .obj [] => []
  | item => [item]

/-- The schemas that are compiled on the way to a schema. -/
def inside (document : Json) : Json → List Json
  | .obj fields => match shape fields with
    | .ref => (referenceTarget document fields).toList
    | .union => choices fields
    | .typeUnion => typeChoices fields
    | .object => (properties fields).map Prod.snd ++ additionalSchemas fields
    | .allOf => (combinedProperties document fields).map Prod.snd
    | .tuple => tupleItems fields
    | .array => itemSchemas fields
    | _ => []
  | _ => []

/-- One schema is compiled on the way to the other, at any depth. -/
def Reaches (document : Json) : Json → Json → Prop :=
  Relation.ReflTransGen fun S S' => S' ∈ inside document S

theorem Reaches.refl (document S : Json) : Reaches document S S :=
  Relation.ReflTransGen.refl

theorem Reaches.head {document S S' T : Json} (h : S' ∈ inside document S)
    (hT : Reaches document S' T) : Reaches document S T :=
  Relation.ReflTransGen.head h hT

theorem Reaches.tail {document S S' T : Json} (h : Reaches document S S')
    (hT : T ∈ inside document S') : Reaches document S T :=
  Relation.ReflTransGen.tail h hT

/-- What a schema reaches is in every list of schemas that has it and is closed under `inside`. -/
theorem Reaches.mem_of_closed {document S T : Json} {schemas : List Json} (h : Reaches document S T)
    (hS : S ∈ schemas) (hclosed : ∀ S' ∈ schemas, ∀ T' ∈ inside document S', T' ∈ schemas) :
    T ∈ schemas := by
  induction h with
  | refl => exact hS
  | tail _ hT ih => exact hclosed _ ih _ hT

/-- The schema is a reference of that text. -/
def RefersTo (ref : String) (S : Json) : Prop :=
  ∃ fields, S = .obj fields ∧ shape fields = .ref ∧ keyword fields "$ref" = .str ref

/-! ## Sizes -/

/-- A declared property is smaller than the schema. -/
theorem size_lt_of_mem_properties {fields : Fields} {key : String} {v : Json}
    (h : (key, v) ∈ properties fields) : v.size < Json.size (.obj fields) := by
  unfold properties declaredProperties orElse at h
  cases hget : Fields.get? fields "properties" with
  | none => simp [hget, fieldsFor] at h
  | some w =>
    have hw := Json.size_le_of_get? hget
    rw [hget] at h
    dsimp only at h
    split_ifs at h
    · simp [fieldsFor] at h
    · cases w with
      | obj declared =>
        have := Json.size_le_of_mem_fields (show (key, v) ∈ declared from h)
        rw [Json.size] at hw ⊢
        omega
      | _ => simp [fieldsFor] at h

/-! ## The core fragment -/

/-- The counts that two keywords give are naturals, which a numeral can hold. -/
def HasNaturalCounts (fields : Fields) (minKey maxKey : String) : Prop :=
  ∃ low high, counts? fields minKey maxKey = some (low, high) ∧ Grammar.IsWritable low ∧
    ∀ most ∈ high, Grammar.IsWritable most

/-- A double is one that binary64 has. -/
def IsBinary64 : Double → Prop
  | .finite _ m e => m < 2 * Double.leastNormal ∧ e ≤ Double.maxExponent
  | _ => True

/-- A bound of an integer is no double that there is not. -/
def IsProperBound (v : Json) : Prop :=
  ∀ x, v = .num (.double x) → IsBinary64 x

/-- The schema itself is in the core fragment: it is no combined one and has no pattern, lists
    something where it lists schemas or values, and counts in naturals. -/
def IsPlain : Json → Prop
  | .obj fields => match shape fields with
    | .union => choices fields ≠ []
    | .typeUnion => typeChoices fields ≠ []
    | .enum => valuesOf (keyword fields "enum") ≠ []
    | .array => HasNaturalCounts fields "minItems" "maxItems"
    | .boundedString => HasNaturalCounts fields "minLength" "maxLength"
    | .intRange => ∀ key ∈ boundKeys, IsProperBound (keyword fields key)
    | .allOf => False
    | .pattern => False
    | _ => True
  | _ => True

/-- The core fragment: all schemas of the document that are compiled are plain, and no reference
    leads back to itself. -/
structure Core (document : Json) : Prop where
  plain : ∀ S, Reaches document document S → IsPlain S
  acyclic : ∀ ref target S S', Reaches document document S → RefersTo ref S →
    targetOf document ref = some target → Reaches document target S' → ¬ RefersTo ref S'

/-! ## Names of properties -/

/-- The names of the properties that a schema declares as an object. -/
def keysOf : Json → List String
  | .obj fields => if shape fields = .object then (properties fields).map Prod.fst else []
  | _ => []

/-- The names of all properties have only ASCII digits. -/
def HasReadableKeys (document : Json) : Prop :=
  ∀ S, Reaches document document S → ∀ key ∈ keysOf S, HasPlainDigits key

/-! ## The schema of the root -/

/-- The property with the empty name that a schema declares as an object. -/
def emptyProperty? : Json → Option Json
  | .obj fields => if shape fields = .object then (properties fields).lookup "" else none
  | _ => none

theorem size_emptyProperty? {S S' : Json} (h : emptyProperty? S = some S') : S'.size < S.size := by
  cases S with
  | obj fields =>
    rw [emptyProperty?] at h
    split_ifs at h
    exact size_lt_of_mem_properties (Assoc.mem_of_lookup h)
  | _ => simp [emptyProperty?] at h

theorem mem_inside_of_emptyProperty {document S S' : Json} (h : emptyProperty? S = some S') :
    S' ∈ inside document S := by
  cases S with
  | obj fields =>
    rw [emptyProperty?] at h
    split_ifs at h with hshape
    rw [inside, hshape]
    exact List.mem_append_left _ (List.mem_map_of_mem (Assoc.mem_of_lookup h))
  | _ => simp [emptyProperty?] at h

/-- The schema whose rule is the root: an object with a property of the empty name leaves the root
    to that property. -/
def start (S : Json) : Json :=
  match _h : emptyProperty? S with
  | none => S
  | some S' => start S'
termination_by S.size
decreasing_by exact size_emptyProperty? _h

theorem start_of_none {S : Json} (h : emptyProperty? S = none) : start S = S := by
  rw [start]
  split
  · rfl
  · rename_i heq
    rw [h] at heq
    exact absurd heq (by simp)

theorem start_of_some {S S' : Json} (h : emptyProperty? S = some S') : start S = start S' := by
  rw [start]
  split
  · rename_i heq
    rw [h] at heq
    exact absurd heq (by simp)
  · rename_i other heq
    rw [Option.some.inj (h.symm.trans heq)]

theorem reaches_start (document S : Json) : Reaches document S (start S) := by
  induction S using start.induct with
  | case1 S hnone =>
    rw [start_of_none hnone]
    exact .refl document S
  | case2 S S' hsome ih =>
    rw [start_of_some hsome]
    exact .head (mem_inside_of_emptyProperty hsome) ih

end Schema

end SchemaGrammar
