import SchemaGrammar.Proofs.Metaschema
import SchemaGrammar.Proofs.Schema.Parts

set_option autoImplicit false

/-! # Schemas that have been checked

A schema that the metaschema has nothing against holds lists of schemas where compiling looks for
them, objects of properties, numbers as counts and texts as patterns. The metaschema does not look at
what references point at, nor at the items of a tuple under `"prefixItems"`. Where these are schemas
as well (`IsCheckedBeyond`), all that compiling meets has been checked (`isSchema_of_reaches`). -/

namespace SchemaGrammar

namespace Schema

open Json (Fields)
open Metaschema (Check IsSchema)

variable {document S w : Json} {fields : Fields} {key : String}

/-! ## Keywords -/

theorem get?_of_given {v : Json} (h : given? fields key = some v) : Fields.get? fields key = some v := by
  unfold given? at h
  split at h
  · cases h
  · exact h

theorem exists_of_has (h : Fields.has fields key = true) : ∃ v, Fields.get? fields key = some v :=
  Option.isSome_iff_exists.1 h

theorem keyword_of_get? {v : Json} (h : Fields.get? fields key = some v) : keyword fields key = v := by
  rw [keyword, h, Option.getD_some]

/-- A keyword that lists schemas. -/
theorem exists_schemas (hS : IsSchema (.obj fields)) (hhas : Fields.has fields key = true)
    (hkey : Check.keywords.lookup key = some .schemaArray) :
    ∃ items, keyword fields key = .arr items ∧ ∀ w ∈ items, IsSchema w := by
  obtain ⟨v, hget⟩ := exists_of_has hhas
  obtain ⟨items, rfl, hitems⟩ := (hS.meets hkey hget).schemaArray
  exact ⟨items, keyword_of_get? hget, hitems⟩

theorem exists_choices (hS : IsSchema (.obj fields)) (hshape : shape fields = .union) :
    ∃ items, (match given? fields "oneOf" with
      | some v => v
      | none => keyword fields "anyOf") = .arr items ∧ ∀ w ∈ items, IsSchema w := by
  cases hgiven : given? fields "oneOf" with
  | some v =>
    obtain ⟨items, rfl, hitems⟩ := (hS.meets rfl (get?_of_given hgiven)).schemaArray
    exact ⟨items, rfl, hitems⟩
  | none =>
    have hany : (given? fields "anyOf").isSome = true :=
      (Shape.Needs.of_eq hshape).resolve_left (by simp [hgiven])
    obtain ⟨v, hgiven⟩ := Option.isSome_iff_exists.1 hany
    exact exists_schemas hS (by rw [Fields.has, get?_of_given hgiven]; rfl) rfl

theorem exists_branches (hS : IsSchema (.obj fields)) (hshape : shape fields = .allOf) :
    ∃ items, keyword fields "allOf" = .arr items ∧ ∀ w ∈ items, IsSchema w :=
  exists_schemas hS (Shape.Needs.of_eq hshape) rfl

theorem exists_constants (hS : IsSchema (.obj fields)) {v : Json}
    (hget : Fields.get? fields "enum" = some v) : ∃ items, v = .arr items :=
  (hS.meets rfl hget).list

/-- What a schema declares as its properties is an object of schemas. -/
theorem exists_declared (hS : IsSchema (.obj fields)) :
    ∃ declared, declaredProperties fields = .ok declared ∧ ∀ x ∈ declared, IsSchema x.2 := by
  unfold declaredProperties orElse
  cases hget : Fields.get? fields "properties" with
  | none => exact ⟨[], rfl, by simp⟩
  | some v =>
    obtain ⟨declared, rfl, hdeclared⟩ := (hS.meets rfl hget).schemas
    dsimp only
    split_ifs
    · exact ⟨[], rfl, by simp⟩
    · exact ⟨declared, rfl, hdeclared⟩

theorem isSchema_of_mem_properties (hS : IsSchema (.obj fields)) {x : String × Json}
    (hx : x ∈ properties fields) : IsSchema x.2 := by
  obtain ⟨declared, hdeclared, hschemas⟩ := exists_declared hS
  rw [properties, hdeclared] at hx
  exact hschemas x hx

theorem exists_required (hS : IsSchema (.obj fields)) : ∃ names, requiredNames fields = .ok names := by
  have hkeys (items : List Json) (hitems : ∀ w ∈ items, ∃ s, w = .str s) :
      items.forM checkKey = .ok () := by
    induction items with
    | nil => rfl
    | cons w rest ih =>
      obtain ⟨s, rfl⟩ := hitems w List.mem_cons_self
      exact ih fun w hw => hitems w (List.mem_cons_of_mem _ hw)
  have hrequired : ∃ items, orElse (Fields.get? fields "required") (.arr []) = .arr items ∧
      ∀ w ∈ items, ∃ s, w = .str s := by
    unfold orElse
    cases hget : Fields.get? fields "required" with
    | none => exact ⟨[], rfl, by simp⟩
    | some v =>
      obtain ⟨items, rfl, hitems⟩ := (hS.meets rfl hget).stringArray
      dsimp only
      split_ifs
      · exact ⟨[], rfl, by simp⟩
      · exact ⟨items, rfl, hitems⟩
  obtain ⟨items, heq, hitems⟩ := hrequired
  rw [requiredNames, heq, elements]
  dsimp only [bind, Except.bind]
  rw [hkeys items hitems]
  exact ⟨_, rfl⟩

/-- The least count is a number, and so is the greatest one, if there is one. -/
theorem exists_counts (hS : IsSchema (.obj fields)) (minKey maxKey : String)
    (hmin : Check.keywords.lookup minKey = some .nonNegativeInteger)
    (hmax : Check.keywords.lookup maxKey = some .nonNegativeInteger) :
    (∃ x, orElse (Fields.get? fields minKey) (.num (.whole 0)) = .num x) ∧
      Grammar.IsNumberOrMissing (keyword fields maxKey) := by
  constructor
  · unfold orElse
    cases hget : Fields.get? fields minKey with
    | none => exact ⟨_, rfl⟩
    | some v =>
      obtain ⟨x, rfl⟩ := (hS.meets hmin hget).number
      dsimp only
      split_ifs
      · exact ⟨_, rfl⟩
      · exact ⟨x, rfl⟩
  · cases hget : Fields.get? fields maxKey with
    | none => exact .inl (by rw [keyword, hget, Option.getD_none])
    | some v =>
      obtain ⟨x, rfl⟩ := (hS.meets hmax hget).number
      exact .inr ⟨x, keyword_of_get? hget⟩

theorem exists_text (hS : IsSchema (.obj fields)) (hhas : Fields.has fields key = true)
    (hkey : Check.keywords.lookup key = some .string) : ∃ s, keyword fields key = .str s := by
  obtain ⟨v, hget⟩ := exists_of_has hhas
  obtain ⟨s, rfl⟩ := (hS.meets hkey hget).string
  exact ⟨s, keyword_of_get? hget⟩

/-! ## Schemas inside -/

/-- What the metaschema does not look at has nothing against it, either. -/
structure IsCheckedBeyond (document : Json) : Prop where
  targets : ∀ S ref target, Reaches document document S → LooksUp S (.str ref) →
    targetOf document ref = some target → IsSchema target
  items : ∀ fields items, Reaches document document (.obj fields) → shape fields = .tuple →
    Fields.get? fields "prefixItems" = some (.arr items) → ∀ item ∈ items, IsSchema item

theorem valuesOf_eq {v : Json} {items : List Json} (h : v = .arr items) : valuesOf v = items := by
  rw [h]
  rfl

theorem isSchema_of_mem_branchParts (hS : IsSchema S) (h : w ∈ branchParts S) : IsSchema w := by
  cases S with
  | obj fields =>
    rw [branchParts] at h
    split_ifs at h with hhas
    · obtain ⟨items, hitems, hschemas⟩ := exists_schemas hS hhas rfl
      rw [valuesOf_eq hitems] at h
      exact hschemas w h
    · exact List.mem_singleton.1 h ▸ hS
  | _ => exact List.mem_singleton.1 (show w ∈ [_] from h) ▸ hS

/-- The parts of a combined schema have been checked, and so has what they stand for. -/
theorem isSchema_of_mem_partsOf (hS : IsSchema (.obj fields)) (hshape : shape fields = .allOf)
    (h : w ∈ partsOf fields) : IsSchema w := by
  obtain ⟨items, hitems, hschemas⟩ := exists_branches hS hshape
  obtain ⟨branch, hbranch, h⟩ := List.mem_flatMap.1 h
  rw [valuesOf_eq hitems] at hbranch
  exact isSchema_of_mem_branchParts (hschemas branch hbranch) h

theorem isSchema_partValue (hbeyond : IsCheckedBeyond document)
    (hreaches : Reaches document document (.obj fields)) (hS : IsSchema (.obj fields))
    (hshape : shape fields = .allOf) {part : Json} (hpart : part ∈ partsOf fields) {v : Json}
    (hv : partValue document part = v) (hnull : v ≠ .null) : IsSchema v := by
  have hschema := isSchema_of_mem_partsOf hS hshape hpart
  cases part with
  | obj inner =>
    rw [partValue] at hv
    split_ifs at hv with hhas
    · obtain ⟨ref, href⟩ := exists_text hschema hhas rfl
      rw [referenceTarget, href] at hv
      dsimp only at hv
      cases htarget : targetOf document ref with
      | none => exact absurd hv.symm (by simpa [htarget] using hnull)
      | some target =>
        obtain rfl : target = v := by simpa [htarget] using hv
        obtain ⟨branch, hbranch, hmem⟩ := List.mem_flatMap.1 hpart
        have hfield : fieldOf (.obj inner) "$ref" = .ok (.str ref) := congrArg Except.ok href
        exact hbeyond.targets _ ref target hreaches (.part hshape hbranch hmem hfield) htarget
    · exact hv ▸ hschema
  | _ => exact hv ▸ hschema

theorem isSchema_of_mem_tupleItems (hbeyond : IsCheckedBeyond document)
    (hreaches : Reaches document document (.obj fields)) (hS : IsSchema (.obj fields))
    (hshape : shape fields = .tuple) (h : w ∈ tupleItems fields) : IsSchema w := by
  unfold tupleItems at h
  split at h
  · rename_i items hget
    exact hbeyond.items fields items hreaches hshape hget w h
  · split at h
    · rename_i items hget
      obtain ⟨check, hcheck, hmeets⟩ := Metaschema.meets_anyOf_iff.1 (hS.meets rfl hget)
      rcases List.mem_pair.1 hcheck with rfl | rfl
      · rcases Metaschema.IsSchema.cases hmeets with ⟨b, hb⟩ | ⟨inner, hinner⟩
        · cases hb
        · cases hinner
      · obtain ⟨others, heq, hschemas⟩ := hmeets.schemaArray
        exact hschemas w (Json.arr.inj heq ▸ h)
    · simp at h

/-- The items of a list have a schema: a list of schemas would make it a tuple. -/
theorem isSchema_of_mem_itemSchemas (hS : IsSchema (.obj fields)) (hshape : shape fields = .array)
    (h : w ∈ itemSchemas fields) : IsSchema w := by
  obtain ⟨hhas, hlist⟩ := Shape.Needs.of_eq hshape
  obtain ⟨v, hget⟩ := exists_of_has hhas
  rw [itemSchemas, keyword_of_get? hget] at h
  obtain ⟨check, hcheck, hmeets⟩ := Metaschema.meets_anyOf_iff.1 (hS.meets rfl hget)
  rcases List.mem_pair.1 hcheck with rfl | rfl
  · split at h
    · simp at h
    · simp at h
    · exact List.mem_singleton.1 h ▸ hmeets
  · obtain ⟨items, rfl, -⟩ := hmeets.schemaArray
    simp [isList, hget] at hlist

theorem isSchema_typed (hS : IsSchema (.obj fields)) {items : List Json} {t : Json}
    (hget : Fields.get? fields "type" = some (.arr items)) (ht : t ∈ items) :
    IsSchema (.obj (Fields.set fields "type" t)) := by
  have htype : Metaschema.Meets .simpleTypes t := by
    obtain ⟨check, hcheck, hmeets⟩ := Metaschema.meets_anyOf_iff.1 (hS.meets rfl hget)
    rcases List.mem_pair.1 hcheck with rfl | rfl
    · exact absurd hmeets (by simp [Metaschema.Meets, Check.simpleTypes, Metaschema.issues,
        Metaschema.issueUnless, Json.isText])
    · exact Metaschema.meets_items_iff.1 (Metaschema.meets_all_iff.1 hmeets (.items .simpleTypes)
        (by simp)) t ht
  refine Metaschema.isSchema_obj_iff.2 ?_
  rintro ⟨key, check⟩ hcheck v hv
  rw [Fields.get?, Fields.set, Assoc.lookup_set] at hv
  split_ifs at hv with hkey
  · obtain rfl := Option.some.inj hv
    obtain rfl : key = "type" := hkey
    have hnodup : (Check.keywords.map Prod.fst).Nodup := by decide
    obtain rfl := Option.some.inj ((Assoc.lookup_of_mem hnodup hcheck).symm.trans rfl)
    exact Metaschema.meets_anyOf_iff.2 ⟨.simpleTypes, List.mem_cons_self, htype⟩
  · exact Metaschema.isSchema_obj_iff.1 hS (key, check) hcheck v hv

/-- **One step inside**, what has been checked stays so. -/
theorem isSchema_of_mem_inside (hbeyond : IsCheckedBeyond document)
    (hreaches : Reaches document document S) (hS : IsSchema S) (h : w ∈ inside document S) :
    IsSchema w := by
  cases S with
  | obj fields =>
    rw [inside] at h
    cases hshape : shape fields with
    | ref =>
      rw [hshape] at h
      obtain ⟨ref, href⟩ := exists_text hS (Shape.Needs.of_eq hshape) rfl
      have htarget : targetOf document ref = some w := by
        rw [← Option.mem_toList.1 h, referenceTarget, href]
      exact hbeyond.targets _ ref w hreaches (href ▸ .reference hshape) htarget
    | union =>
      rw [hshape] at h
      obtain ⟨items, hitems, hschemas⟩ := exists_choices hS hshape
      exact hschemas w (valuesOf_eq hitems ▸ h)
    | typeUnion =>
      rw [hshape] at h
      obtain ⟨items, hget⟩ := exists_of_typeUnion hshape
      obtain ⟨t, ht, rfl⟩ := List.mem_map.1 (show w ∈ (valuesOf _).map _ from h)
      rw [keyword_of_get? hget] at ht
      exact isSchema_typed hS hget ht
    | object =>
      rw [hshape] at h
      rcases List.mem_append.1 h with h | h
      · obtain ⟨x, hx, rfl⟩ := List.mem_map.1 h
        exact isSchema_of_mem_properties hS hx
      · unfold additionalSchemas at h
        cases hget : Fields.get? fields "additionalProperties" with
        | none => simp [keyword, hget] at h
        | some v =>
          have hschema : Metaschema.Meets .schema v := hS.meets rfl hget
          rw [keyword_of_get? hget] at h
          split at h
          · simp at h
          · exact List.mem_singleton.1 h ▸ hschema
          · simp at h
    | allOf =>
      rw [hshape] at h
      obtain ⟨x, hx, rfl⟩ := List.mem_map.1 h
      unfold combinedProperties at hx
      split_ifs at hx
      · obtain ⟨part, hpart, hx⟩ := List.mem_flatMap.1 hx
        unfold partFields at hx
        split at hx
        · rename_i inner hvalue
          exact isSchema_of_mem_properties
            (isSchema_partValue hbeyond hreaches hS hshape hpart hvalue (by simp)) hx
        · simp [properties, declaredProperties, orElse, Fields.get?, fieldsFor] at hx
      · simp at hx
    | tuple =>
      rw [hshape] at h
      exact isSchema_of_mem_tupleItems hbeyond hreaches hS hshape h
    | array =>
      rw [hshape] at h
      exact isSchema_of_mem_itemSchemas hS hshape h
    | _ => simp [hshape] at h
  | _ => simp [inside] at h

end Schema

end SchemaGrammar
