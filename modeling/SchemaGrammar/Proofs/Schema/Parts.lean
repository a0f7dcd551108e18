import SchemaGrammar.Proofs.Schema.Faults
import SchemaGrammar.Proofs.Schema.Resolving

set_option autoImplicit false

/-! # Parts of documents and their references

A schema that compiling meets, however deep and whatever the names on the way to it, stands somewhere
in the document, or has one of several types put in for all of them (`ComesFrom`). So what holds of
all references in the document holds of those that compiling meets (`RefersWithin.reaches`). -/

namespace SchemaGrammar

open Json (Fields)

/-! ## Parts of a document -/

namespace Json

/-- The first value is the second one or stands in it at any depth. -/
inductive Part (w : Json) : Json → Prop
  | refl : Part w w
  | item {v items} (hv : v ∈ items) (h : Part w v) : Part w (.arr items)
  | field {v key fields} (hv : (key, v) ∈ fields) (h : Part w v) : Part w (.obj fields)

/-- Each object in a document names a field once. -/
def HasDistinctKeys (document : Json) : Prop :=
  ∀ fields, Part (.obj fields) document → (Fields.keys fields).Nodup

mutual

/-- All values in a value, itself included. -/
def parts : Json → List Json
  | .arr items => .arr items :: partsOfItems items
  | .obj fields => .obj fields :: partsOfFields fields
  | v => [v]

def partsOfItems : List Json → List Json
  | [] => []
  | v :: rest => parts v ++ partsOfItems rest

def partsOfFields : List (String × Json) → List Json
  | [] => []
  | (_, v) :: rest => parts v ++ partsOfFields rest

end

mutual

theorem length_parts : (v : Json) → v.parts.length = v.size
  | .arr items => by simp [parts, size, length_partsOfItems items, Nat.add_comm]
  | .obj fields => by simp [parts, size, length_partsOfFields fields, Nat.add_comm]
  | .null | .bool _ | .num _ | .str _ => rfl

theorem length_partsOfItems : (items : List Json) → (partsOfItems items).length = sizeOfItems items
  | [] => rfl
  | v :: rest => by
    simp [partsOfItems, sizeOfItems, length_parts v, length_partsOfItems rest]

theorem length_partsOfFields :
    (fields : List (String × Json)) → (partsOfFields fields).length = sizeOfFields fields
  | [] => rfl
  | (_, v) :: rest => by
    simp [partsOfFields, sizeOfFields, length_parts v, length_partsOfFields rest]

end

theorem mem_parts_self (v : Json) : v ∈ v.parts := by
  cases v <;> simp [parts]

theorem partsOfItems_eq (items : List Json) : partsOfItems items = items.flatMap parts := by
  induction items with
  | nil => rfl
  | cons v rest ih => rw [partsOfItems, ih, List.flatMap_cons]

theorem partsOfFields_eq (fields : List (String × Json)) :
    partsOfFields fields = fields.flatMap fun field => field.2.parts := by
  induction fields with
  | nil => rfl
  | cons field rest ih => rw [partsOfFields, ih, List.flatMap_cons]

theorem Part.mem_parts {v w : Json} (h : Part w v) : w ∈ v.parts := by
  induction h with
  | refl => exact mem_parts_self w
  | item hv _ ih =>
    rw [parts, partsOfItems_eq]
    exact List.mem_cons_of_mem _ (List.mem_flatMap.2 ⟨_, hv, ih⟩)
  | field hv _ ih =>
    rw [parts, partsOfFields_eq]
    exact List.mem_cons_of_mem _ (List.mem_flatMap.2 ⟨_, hv, ih⟩)

/-- The fields of an object. -/
def fields? : Json → Option Fields
  | .obj fields => some fields
  | _ => none

mutual

/-- All objects in a value. -/
def objects : Json → List Fields
  | .arr items => objectsOfItems items
  | .obj fields => fields :: objectsOfFields fields
  | _ => []

def objectsOfItems : List Json → List Fields
  | [] => []
  | v :: rest => objects v ++ objectsOfItems rest

def objectsOfFields : List (String × Json) → List Fields
  | [] => []
  | (_, v) :: rest => objects v ++ objectsOfFields rest

end

mutual

theorem objects_eq : (v : Json) → v.objects = v.parts.filterMap fields?
  | .arr items => by
    rw [objects, parts, List.filterMap_cons_none rfl, objectsOfItems_eq items]
  | .obj fields => by
    rw [objects, parts, objectsOfFields_eq fields]
    rfl
  | .null | .bool _ | .num _ | .str _ => rfl

theorem objectsOfItems_eq :
    (items : List Json) → objectsOfItems items = (partsOfItems items).filterMap fields?
  | [] => rfl
  | v :: rest => by simp [objectsOfItems, partsOfItems, objects_eq v, objectsOfItems_eq rest]

theorem objectsOfFields_eq : (fields : List (String × Json)) →
    objectsOfFields fields = (partsOfFields fields).filterMap fields?
  | [] => rfl
  | (_, v) :: rest => by
    simp [objectsOfFields, partsOfFields, objects_eq v, objectsOfFields_eq rest]

end

theorem Part.mem_objects {fields : Fields} {v : Json} (h : Part (.obj fields) v) :
    fields ∈ v.objects := by
  rw [objects_eq]
  exact List.mem_filterMap.2 ⟨_, h.mem_parts, rfl⟩

theorem Part.trans {u v w : Json} (h : Part u v) (h' : Part v w) : Part u w := by
  induction h' with
  | refl => exact h
  | item hv _ ih => exact .item hv ih
  | field hv _ ih => exact .field hv ih

theorem part_of_child? {v w : Json} {step : Step} (h : v.child? step = some w) : Part w v := by
  cases v with
  | arr items =>
    cases step with
    | index i => exact .item (List.mem_of_getElem? h) .refl
    | key name => cases h
  | obj fields =>
    cases step with
    | index i => cases h
    | key name => exact .field (Assoc.mem_of_lookup h) .refl
  | _ => cases step <;> cases h

theorem part_of_at? {v w : Json} {path : Path} (h : v.at? path = some w) : Part w v := by
  induction path generalizing v with
  | nil =>
    obtain rfl : v = w := by simpa [at?] using h
    exact .refl
  | cons step rest ih =>
    rw [at?] at h
    cases hchild : v.child? step with
    | none => simp [hchild] at h
    | some u =>
      rw [hchild] at h
      exact (ih h).trans (part_of_child? hchild)

theorem at?_append (v : Json) (p q : Path) : v.at? (p ++ q) = (v.at? p).bind (·.at? q) := by
  induction p generalizing v with
  | nil => rfl
  | cons step rest ih =>
    rw [List.cons_append, at?, at?]
    cases v.child? step with
    | none => rfl
    | some w => exact ih w

/-- Where each object names a field once, every part has a place. -/
theorem Part.exists_place {v w : Json} (h : Part w v) (hdistinct : HasDistinctKeys v) :
    ∃ path, v.at? path = some w := by
  induction h with
  | refl => exact ⟨[], rfl⟩
  | @item v items hv h ih =>
    obtain ⟨path, hpath⟩ := ih fun fields hfields => hdistinct fields (.item hv hfields)
    obtain ⟨i, hi, rfl⟩ := List.mem_iff_getElem.1 hv
    refine ⟨.index i :: path, ?_⟩
    rw [at?, child?, List.getElem?_eq_getElem hi]
    exact hpath
  | @field v key fields hv h ih =>
    obtain ⟨path, hpath⟩ := ih fun inner hinner => hdistinct inner (.field hv hinner)
    have hget : Fields.get? fields key = some v :=
      Assoc.lookup_of_mem (hdistinct fields .refl) hv
    refine ⟨.key key :: path, ?_⟩
    rw [at?, child?, hget]
    exact hpath

end Json

open Json (Part)

/-! ## What is inside a schema -/

namespace Schema

open Resolver (reference? refKey reference?_eq_some)

variable {kind : String → Prop} {document v w : Json} {fields : Fields}

theorem part_of_get? {key : String} (h : Fields.get? fields key = some v) : Part v (.obj fields) :=
  .field (Assoc.mem_of_lookup h) .refl

theorem eq_of_part_str {s : String} (h : Part w (.str s)) : w = .str s := by
  cases h
  rfl

/-- What going through a value meets is a part of it, or a text. -/
theorem part_of_mem_valuesOf (h : w ∈ valuesOf v) : Part w v ∨ ∃ s, w = .str s := by
  cases v with
  | arr items => exact .inl (.item h .refl)
  | obj fields =>
    obtain ⟨key, -, rfl⟩ := List.mem_map.1 (show w ∈ (Fields.keys fields).map Json.str from h)
    exact .inr ⟨key, rfl⟩
  | str s =>
    obtain ⟨c, -, rfl⟩ := List.mem_map.1 (show w ∈ s.toList.map fun c => .str c.toString from h)
    exact .inr ⟨_, rfl⟩
  | _ => simp [valuesOf, elements] at h

theorem part_of_mem_keyword {key : String} (h : w ∈ valuesOf (keyword fields key)) :
    Part w (.obj fields) ∨ ∃ s, w = .str s := by
  unfold keyword at h
  cases hget : Fields.get? fields key with
  | none => simp [hget, valuesOf, elements] at h
  | some v =>
    rw [hget] at h
    exact (part_of_mem_valuesOf h).imp_left fun hpart => hpart.trans (part_of_get? hget)

theorem part_of_mem_properties {x : String × Json} (h : x ∈ properties fields) :
    Part x.2 (.obj fields) := by
  unfold properties declaredProperties orElse at h
  cases hget : Fields.get? fields "properties" with
  | none => simp [hget, fieldsFor] at h
  | some v =>
    rw [hget] at h
    dsimp only at h
    split_ifs at h
    · simp [fieldsFor] at h
    · cases v with
      | obj declared => exact (Part.field h .refl).trans (part_of_get? hget)
      | _ => simp [fieldsFor] at h

/-- What a reference points at is a part of the document. -/
theorem part_of_targetOf {ref : String} (h : targetOf document ref = some v) : Part v document := by
  unfold targetOf at h
  split at h
  · rename_i path w hfollow
    obtain rfl := Option.some.inj h
    exact Json.part_of_at? (Pointer.at?_of_follow hfollow)
  · cases h

theorem part_of_referenceTarget (h : referenceTarget document fields = some v) : Part v document := by
  unfold referenceTarget at h
  split at h
  · exact part_of_targetOf h
  · cases h

/-! ### Combined schemas -/

theorem part_of_mem_branchParts (h : w ∈ branchParts v) : Part w v ∨ ∃ s, w = .str s := by
  cases v with
  | obj fields =>
    rw [branchParts] at h
    split_ifs at h
    · exact part_of_mem_keyword h
    · exact .inl (List.mem_singleton.1 h ▸ .refl)
  | _ => exact .inl (List.mem_singleton.1 (show w ∈ [_] from h) ▸ .refl)

theorem part_of_mem_partsOf (h : w ∈ partsOf fields) : Part w (.obj fields) ∨ ∃ s, w = .str s := by
  obtain ⟨branch, hbranch, h⟩ := List.mem_flatMap.1 h
  rcases part_of_mem_keyword hbranch with hpart | ⟨s, rfl⟩
  · exact (part_of_mem_branchParts h).imp_left fun hw => hw.trans hpart
  · exact .inr ⟨s, List.mem_singleton.1 (show w ∈ [Json.str s] from h)⟩

/-- The properties of a part of a combined schema come from the part, or from what it refers to. -/
theorem part_of_mem_partFields {x : String × Json} (h : x ∈ properties (partFields document v)) :
    Part x.2 v ∨ Part x.2 document := by
  cases hvalue : partValue document v with
  | obj inner =>
    rw [partFields, hvalue] at h
    have hx := part_of_mem_properties h
    rw [← hvalue] at hx
    unfold partValue at hx
    split at hx
    · rename_i fields
      split_ifs at hx with hhas
      · cases htarget : referenceTarget document fields with
        | none => simp [partValue, hhas, htarget] at hvalue
        | some w =>
          rw [htarget] at hx
          exact .inr (hx.trans (part_of_referenceTarget htarget))
      · exact .inl hx
    · exact .inl hx
  | _ =>
    rw [partFields, hvalue] at h
    simp [properties, declaredProperties, orElse, Fields.get?, fieldsFor] at h

/-! ### One step inside -/

/-- Where a schema inside another one comes from: it is a part of that schema or of the document, a
    text met by going through a value, or the schema with one of its types alone. -/
inductive ComesFrom (document : Json) (fields : Fields) : Json → Prop
  | part {S} (h : Part S (.obj fields)) : ComesFrom document fields S
  | document {S} (h : Part S document) : ComesFrom document fields S
  | text (s : String) : ComesFrom document fields (.str s)
  | typed {items t} (hget : Fields.get? fields "type" = some (.arr items)) (ht : t ∈ items) :
      ComesFrom document fields (.obj (Fields.set fields "type" t))

theorem ComesFrom.of_part_or_text (h : Part w (.obj fields) ∨ ∃ s, w = .str s) :
    ComesFrom document fields w := by
  rcases h with h | ⟨s, rfl⟩
  · exact .part h
  · exact .text s

theorem exists_of_isList {key : String} (h : isList fields key = true) :
    ∃ items, Fields.get? fields key = some (.arr items) := by
  unfold isList at h
  split at h
  · rename_i items hget
    exact ⟨items, hget⟩
  · cases h

theorem exists_of_typeUnion (hshape : shape fields = .typeUnion) :
    ∃ items, Fields.get? fields "type" = some (.arr items) :=
  exists_of_isList (Shape.Needs.of_eq hshape)

theorem items_of_array (hshape : shape fields = .array) : Fields.get? fields "items" ≠ none :=
  Option.isSome_iff_ne_none.1 (Shape.Needs.of_eq hshape).1

theorem comesFrom_of_mem_inside (h : w ∈ inside document (.obj fields)) :
    ComesFrom document fields w := by
  rw [inside] at h
  cases hshape : shape fields with
  | ref =>
    rw [hshape] at h
    exact .document (part_of_referenceTarget (Option.mem_toList.1 h))
  | union =>
    rw [hshape] at h
    dsimp only [choices] at h
    split at h
    · rename_i v hgiven
      have hget : Fields.get? fields "oneOf" = some v := by
        unfold given? at hgiven
        split at hgiven
        · cases hgiven
        · exact hgiven
      exact .of_part_or_text ((part_of_mem_valuesOf h).imp_left fun hw => hw.trans (part_of_get? hget))
    · exact .of_part_or_text (part_of_mem_keyword h)
  | typeUnion =>
    rw [hshape] at h
    obtain ⟨items, hget⟩ := exists_of_typeUnion hshape
    obtain ⟨t, ht, rfl⟩ := List.mem_map.1 (show w ∈ (valuesOf _).map _ from h)
    rw [keyword, hget] at ht
    exact .typed hget ht
  | object =>
    rw [hshape] at h
    rcases List.mem_append.1 h with h | h
    · obtain ⟨x, hx, rfl⟩ := List.mem_map.1 h
      exact .part (part_of_mem_properties hx)
    · unfold additionalSchemas keyword at h
      cases hget : Fields.get? fields "additionalProperties" with
      | none => simp [hget] at h
      | some v =>
        rw [hget, Option.getD_some] at h
        split at h
        · simp at h
        · exact .part (List.mem_singleton.1 h ▸ part_of_get? hget)
        · simp at h
  | allOf =>
    rw [hshape] at h
    obtain ⟨x, hx, rfl⟩ := List.mem_map.1 h
    unfold combinedProperties at hx
    split_ifs at hx
    · obtain ⟨part, hpart, hx⟩ := List.mem_flatMap.1 hx
      rcases part_of_mem_partFields hx with hx | hx
      · rcases part_of_mem_partsOf hpart with hpart | ⟨s, rfl⟩
        · exact .part (hx.trans hpart)
        · rw [eq_of_part_str hx]
          exact .text s
      · exact .document hx
    · simp at hx
  | tuple =>
    rw [hshape] at h
    dsimp only [tupleItems] at h
    split at h
    · rename_i items hget
      exact .part ((Part.item h .refl).trans (part_of_get? hget))
    · split at h
      · rename_i items hget
        exact .part ((Part.item h .refl).trans (part_of_get? hget))
      · simp at h
  | array =>
    rw [hshape] at h
    dsimp only [itemSchemas, keyword] at h
    cases hget : Fields.get? fields "items" with
    | none => exact absurd hget (items_of_array hshape)
    | some v =>
      rw [hget, Option.getD_some] at h
      split at h
      · simp at h
      · simp at h
      · exact .part (List.mem_singleton.1 h ▸ part_of_get? hget)
  | _ => simp [hshape] at h

/-! ## Schemas with references of one kind -/

/-- Every reference in a value is of one kind. -/
def RefersWithin (kind : String → Prop) (v : Json) : Prop :=
  ∀ w ref, Part w v → reference? w = some ref → kind ref

theorem RefersWithin.part (h : RefersWithin kind v) (hw : Part w v) : RefersWithin kind w :=
  fun u ref hu => h u ref (hu.trans hw)

theorem refersWithin_str (s : String) : RefersWithin kind (.str s) := by
  intro w ref hw href
  rw [eq_of_part_str hw] at href
  cases href

theorem RefersWithin.of_part_or_text (h : RefersWithin kind v)
    (hw : Part w v ∨ ∃ s, w = .str s) : RefersWithin kind w := by
  rcases hw with hw | ⟨s, rfl⟩
  · exact h.part hw
  · exact refersWithin_str s

/-- A field that is no reference may be set to another such value. -/
theorem RefersWithin.set (h : RefersWithin kind (.obj fields)) (hv : RefersWithin kind v)
    {key : String} (hkey : key ≠ refKey) :
    RefersWithin kind (.obj (Fields.set fields key v)) := by
  intro w ref hw href
  cases hw with
  | refl =>
    refine h _ ref .refl ?_
    have hget := reference?_eq_some.1 href
    refine reference?_eq_some.2 (Eq.trans ?_ hget)
    change fields.lookup refKey = (Assoc.set fields key v).lookup refKey
    rw [Assoc.lookup_set, if_neg hkey.symm]
  | field hmem hpart =>
    rcases Assoc.mem_of_mem_set hmem with hold | heq
    · exact h w ref (.field hold hpart) href
    · obtain ⟨-, rfl⟩ := Prod.mk.inj heq
      exact hv w ref hpart href

/-- The references of a schema inside another one, or of a target, are those of the document. -/
theorem RefersWithin.inside (hdocument : RefersWithin kind document) (h : RefersWithin kind v)
    (hw : w ∈ Schema.inside document v) : RefersWithin kind w := by
  cases v with
  | obj fields =>
    cases comesFrom_of_mem_inside hw with
    | part hpart => exact h.part hpart
    | document hpart => exact hdocument.part hpart
    | text s => exact refersWithin_str s
    | typed hget ht =>
      exact h.set (h.part ((Part.item ht .refl).trans (part_of_get? hget))) (by decide)
  | _ => simp [Schema.inside] at hw

/-- The references that compiling a schema looks up are among those of the schema. -/
theorem RefersWithin.looksUp (h : RefersWithin kind v) {value : Json} (hlooks : LooksUp v value)
    {ref : String} (hvalue : value = .str ref) : kind ref := by
  have hhere {fields : Fields} (hfields : RefersWithin kind (.obj fields))
      (hkeyword : Schema.keyword fields "$ref" = .str ref) : kind ref := by
    refine hfields _ ref .refl (reference?_eq_some.2 (?_ : Fields.get? fields "$ref" = _))
    unfold Schema.keyword at hkeyword
    cases hget : Fields.get? fields "$ref" with
    | none => simp [hget] at hkeyword
    | some w =>
      rw [hget] at hkeyword
      exact congrArg some hkeyword
  cases hlooks with
  | reference _ => exact hhere h hvalue
  | @part fields branch part _ _ hbranch hpart href =>
    have hknown := (h.of_part_or_text (part_of_mem_keyword hbranch)).of_part_or_text
      (part_of_mem_branchParts hpart)
    cases part with
    | obj inner => exact hhere hknown ((Except.ok.inj href).trans hvalue)
    | _ => cases href

/-- The references of all schemas that are compiled are those of the document. -/
theorem RefersWithin.reaches (hdocument : RefersWithin kind document) (h : RefersWithin kind v)
    (hw : Reaches document v w) : RefersWithin kind w := by
  induction hw with
  | refl => exact h
  | tail _ hstep ih => exact hdocument.inside ih hstep

end Schema

end SchemaGrammar
