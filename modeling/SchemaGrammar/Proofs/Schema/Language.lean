import Mathlib.Order.FixedPoints
import Mathlib.Order.CompletePartialOrder
import SchemaGrammar.Proofs.Rules.Repetition
import SchemaGrammar.Proofs.Rules.Standalone
import SchemaGrammar.Proofs.Schema.Keywords

set_option autoImplicit false

/-! # The languages of schemas

What a schema means, apart from any way to compile it: a language of JSON texts. The shape of a
schema decides which of its keywords count. A schema means what its parts mean put together, and a
reference means what its target means; as references may lead back, the meaning is the least
solution of these equations (`language_eq`). -/

namespace SchemaGrammar

namespace Schema

open Builtin (languageOf)
open Grammar (repeated separated listed)
open Json (Fields)

/-! ## Texts -/

/-- The blanks behind every token. -/
def blanks : Language Char :=
  languageOf Builtin.space

/-- A mark with blanks behind it. -/
def mark (s : String) : Language Char :=
  {s.toList} * blanks

/-- A value in its shortest form. -/
def valueText (v : Json) : Language Char :=
  mark v.compact

/-- The texts of a built-in rule. -/
def builtin (name : String) : Language Char :=
  match Builtin.find? name with
  | some rule => languageOf rule.body
  | none => 0

/-! ## One step -/

/-- A key with a value. -/
def pair (key value : Language Char) : Language Char :=
  key * mark ":" * value

/-- The keys of additional properties: any strings but the declared names. -/
def otherKeys (names : List String) : Language Char :=
  if names.isEmpty then builtin "string"
  else languageOf (Exclusion.body "char" (Trie.ofTexts ((names.map Json.str).map Exclusion.content)))

/-- Objects: all keys of `first`, some of `optional`, both in their order, and any number of
    additional pairs. -/
def objectLanguage (pairOf : String → Language Char) (first optional : List String)
    (extra : Language Char) : Language Char :=
  {text | ∃ chosen count, List.Sublist chosen optional ∧ text ∈ mark "\x7b" *
    separated (mark ",") ((first ++ chosen).map pairOf ++ List.replicate count extra) *
      mark "\x7d"}

/-- Lists from `[` to `]`. -/
def bracketed (items : Language Char) : Language Char :=
  mark "[" * items * mark "]"

/-- Lists of items with commas between them. -/
def countedList (fields : Fields) (item : Language Char) : Language Char :=
  match counts? fields "minItems" "maxItems" with
  | some (low, high) => bracketed (listed (mark ",") low high item)
  | none => 0

section Step

variable (options : Options) (document : Json) (meaning : Json → Language Char)

/-- The additional pairs that an object may have. -/
def additionalPairs (fields : Fields) : Language Char :=
  let pairWith := pair (otherKeys (propertyNames options fields))
  match keyword fields "additionalProperties" with
  | .bool true => pairWith (builtin "value")
  | .obj [] => pairWith (builtin "value")
  | .obj inner => pairWith (meaning (.obj inner))
  | _ => 0

def objectMeaning (fields : Fields) : Language Char :=
  let names := propertyNames options fields
  objectLanguage (fun key => pair (valueText (.str key)) (meaning (propertySchema fields key)))
    (names.filter (required fields).contains)
    (names.filter fun key => !(required fields).contains key)
    (additionalPairs options meaning fields)

def arrayMeaning (fields : Fields) : Language Char :=
  match keyword fields "items" with
  | .bool false => bracketed 1
  | .bool true => countedList fields (builtin "value")
  | .obj [] => countedList fields (builtin "value")
  | item => countedList fields (meaning item)

/-- A string between its quotes, with counted characters. -/
def stringMeaning (fields : Fields) : Language Char :=
  match counts? fields "minLength" "maxLength" with
  | some (low, high) => {['"']} * repeated low high (builtin "char") * mark "\""
  | none => 0

/-- The integers between the bounds, as far as the ceiling of digits goes. -/
def integerMeaning (fields : Fields) : Language Char :=
  match boundsOf fields with
  | .error _ => 0
  | .ok b => match IntRange.expression b.low b.high options.maxDigits with
    | .ok e => languageOf ("(" ++ e ++ ") space")
    | .error _ => 0

/-- What a schema means, given the meanings of those inside. Combined schemas and patterns are
    left out. -/
def meaningStep : Json → Language Char
  | .obj fields => match shape fields with
    | .ref => ((referenceTarget document fields).map meaning).getD 0
    | .union => ((choices fields).map meaning).sum
    | .typeUnion => ((typeChoices fields).map meaning).sum
    | .const => valueText (keyword fields "const")
    | .enum => ((valuesOf (keyword fields "enum")).map valueText).sum
    | .object => objectMeaning options meaning fields
    | .tuple => bracketed (separated (mark ",") ((tupleItems fields).map meaning))
    | .array => arrayMeaning meaning fields
    | .uuid => builtin "uuid"
    | .formatString => builtin (formatRuleName (keyword fields "format").shown)
    | .boundedString => stringMeaning fields
    | .intRange => integerMeaning options fields
    | .genericObject => builtin "object"
    | .primitive => builtin (keyword fields "type").shown
    | .allOf => 0
    | .pattern => 0
    | .unrecognized => 0
  | _ => 0

end Step

/-! ## The least solution -/

section Monotone

variable {A B S : Language Char} {As Bs : List (Language Char)}

theorem separated_mono (h : List.Forall₂ (· ≤ ·) As Bs) : separated S As ≤ separated S Bs := by
  induction h with
  | nil => exact le_refl _
  | @cons A B As Bs hAB hrest ih =>
    cases hrest with
    | nil => exact hAB
    | cons _ _ => exact mul_le_mul' (mul_le_mul' hAB (le_refl S)) ih

theorem forall₂_replicate {count : Nat} (h : A ≤ B) :
    List.Forall₂ (· ≤ ·) (List.replicate count A) (List.replicate count B) := by
  induction count with
  | zero => exact .nil
  | succ count ih => exact .cons h ih

theorem forall₂_map {α : Type} {f g : α → Language Char} (h : ∀ a, f a ≤ g a) (xs : List α) :
    List.Forall₂ (· ≤ ·) (xs.map f) (xs.map g) := by
  induction xs with
  | nil => exact .nil
  | cons x xs ih => exact .cons (h x) ih

theorem listed_mono {low : Nat} {high : Option Nat} (h : A ≤ B) :
    listed S low high A ≤ listed S low high B := by
  rintro text ⟨count, hlow, hhigh, hmem⟩
  exact ⟨count, hlow, hhigh, separated_mono (forall₂_replicate h) hmem⟩

theorem sum_map_mono {f g : Json → Language Char} (h : ∀ S, f S ≤ g S) (schemas : List Json) :
    (schemas.map f).sum ≤ (schemas.map g).sum := by
  intro text htext
  obtain ⟨L, hL, hmem⟩ := Grammar.mem_sum.1 htext
  obtain ⟨S, hS, rfl⟩ := List.mem_map.1 hL
  exact Grammar.mem_sum.2 ⟨g S, List.mem_map.2 ⟨S, hS, rfl⟩, h S hmem⟩

theorem objectLanguage_mono {f g : String → Language Char} (h : ∀ key, f key ≤ g key)
    (hAB : A ≤ B) (first optional : List String) :
    objectLanguage f first optional A ≤ objectLanguage g first optional B := by
  rintro text ⟨chosen, count, hsub, hmem⟩
  refine ⟨chosen, count, hsub, ?_⟩
  refine mul_le_mul' (mul_le_mul' (le_refl _) (separated_mono ?_)) (le_refl _) hmem
  exact List.rel_append (forall₂_map h _) (forall₂_replicate hAB)

theorem countedList_mono (fields : Fields) (h : A ≤ B) :
    countedList fields A ≤ countedList fields B := by
  unfold countedList
  split
  · exact mul_le_mul' (mul_le_mul' (le_refl _) (listed_mono h)) (le_refl _)
  · exact le_refl _

end Monotone

theorem monotone_meaningStep (options : Options) (document : Json) :
    Monotone (meaningStep options document) := by
  intro f g hfg S
  have h : ∀ S, f S ≤ g S := hfg
  cases S with
  | obj fields =>
    rw [meaningStep, meaningStep]
    cases shape fields with
    | ref =>
      cases referenceTarget document fields with
      | none => exact le_refl _
      | some target => exact h target
    | union => exact sum_map_mono h _
    | typeUnion => exact sum_map_mono h _
    | object =>
      refine objectLanguage_mono (fun key => mul_le_mul' (le_refl _) (h _)) ?_ _ _
      unfold additionalPairs
      dsimp only
      split
      · exact le_refl _
      · exact le_refl _
      · exact mul_le_mul' (le_refl _) (h _)
      · exact le_refl _
    | tuple => exact mul_le_mul' (mul_le_mul' (le_refl _) (separated_mono (forall₂_map h _))) (le_refl _)
    | array =>
      dsimp only
      unfold arrayMeaning
      split
      · exact le_refl _
      · exact le_refl _
      · exact le_refl _
      · exact countedList_mono fields (h _)
    | _ => exact le_refl _
  | _ => exact le_refl _

/-- The texts of a schema in a document. -/
noncomputable def language (options : Options) (document : Json) : Json → Language Char :=
  OrderHom.lfp ⟨meaningStep options document, monotone_meaningStep options document⟩

theorem language_eq (options : Options) (document S : Json) :
    language options document S = meaningStep options document (language options document) S :=
  (congrFun (OrderHom.map_lfp
    ⟨meaningStep options document, monotone_meaningStep options document⟩) S).symm

end Schema

end SchemaGrammar
