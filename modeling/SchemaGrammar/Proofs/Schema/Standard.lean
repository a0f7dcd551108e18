import Mathlib.Order.FixedPoints
import Mathlib.Order.CompletePartialOrder
import SchemaGrammar.Proofs.Schema.Objects

set_option autoImplicit false

/-! # Schemas mean JSON values

Whatever a schema means, its texts are JSON values with blanks behind them (`language_le_spaced`), as
long as its constants have no number that JSON cannot write. The meanings are the least solution of
their equations, so it is enough that each equation keeps this bound: from values of the schemas
inside, brackets, braces and commas make a value (`meaningStep_le`). -/

namespace SchemaGrammar

open Computability

namespace Schema

open Grammar (separated listed repeated)
open Json (Fields)
open Standard (ws spaced spacedMember string)

/-! ## Marks and built-in rules -/

theorem blanks_le : blanks ≤ ws :=
  Builtin.languageOf_body_le List.mem_cons_self

/-- There may be no blanks anywhere. -/
theorem nil_mem_blanks : [] ∈ blanks := by
  have hspace : (Builtin.spaceName, Builtin.space) ∈ Builtin.bodies := List.mem_cons_self
  obtain ⟨node, hnode, hbody⟩ := Builtin.exists_node hspace
  have hfits := Builtin.fits_nodes hnode
  rw [blanks, Builtin.languageOf_eq (.inl ⟨hbody, hfits.names, hfits.counts⟩)]
  cases hnode
  exact .alt List.mem_cons_self .nil

theorem isBlank_of_mem_blanks {w : List Char} (hw : w ∈ blanks) : ∀ c ∈ w, Standard.IsBlank c := by
  obtain ⟨pieces, rfl, hpieces⟩ := Language.mem_kstar.1 (blanks_le hw)
  intro c hmem
  obtain ⟨piece, hpiece, hmem⟩ := List.mem_flatten.1 hmem
  obtain ⟨d, rfl, hd⟩ := hpieces piece hpiece
  rwa [List.mem_singleton.1 hmem]

/-- No blank is a quote. -/
theorem quote_notMem_blanks {w : List Char} (hw : w ∈ blanks) : '"' ∉ w :=
  fun hmem => absurd (isBlank_of_mem_blanks hw _ hmem) (by unfold Standard.IsBlank; decide)

/-- The texts of a language between quotes, with blanks behind them. -/
def quoted (L : Language Char) : Language Char :=
  {['"']} * L * ({['"']} * blanks)

theorem mem_quoted {L : Language Char} {text : List Char} :
    text ∈ quoted L ↔ ∃ e ∈ L, ∃ w ∈ blanks, text = '"' :: (e ++ '"' :: w) := by
  constructor
  · intro htext
    obtain ⟨front, hfront, back, hback, rfl⟩ := Language.mem_mul.1 htext
    obtain ⟨_, rfl, e, he, rfl⟩ := Language.mem_mul.1 hfront
    obtain ⟨_, rfl, w, hw, rfl⟩ := Language.mem_mul.1 hback
    exact ⟨e, he, w, hw, rfl⟩
  · rintro ⟨e, he, w, hw, rfl⟩
    have hfront : ['"'] ++ e ∈ ({['"']} : Language Char) * L := Language.append_mem_mul rfl he
    have hback : ['"'] ++ w ∈ ({['"']} : Language Char) * blanks := Language.append_mem_mul rfl hw
    exact Language.append_mem_mul hfront hback

theorem mem_mark (s : String) : s.toList ∈ mark s := by
  have hmem : s.toList ++ [] ∈ mark s := Language.append_mem_mul rfl nil_mem_blanks
  simpa using hmem

theorem mark_le (s : String) : mark s ≤ {s.toList} * ws :=
  mul_le_mul' le_rfl blanks_le

/-- A built-in rule keeps to its type. -/
theorem builtin_le (name : String) : builtin name ≤ Builtin.typeOf name := by
  unfold builtin
  cases hrule : Builtin.find? name with
  | none => exact bot_le
  | some rule => exact Builtin.languageOf_body_le (RuleTable.mem_bodies hrule)

/-- The built-in rules that are only parts of values. -/
def partNames : List String :=
  ["space", "integral-part", "decimal-part", "char", "date", "time", "date-time"]

theorem builtin_le_spaced {name : String} (h : name ∉ partNames) : builtin name ≤ spaced := by
  refine le_trans (builtin_le name) ?_
  simp only [partNames, List.mem_cons, List.not_mem_nil, or_false, not_or] at h
  obtain ⟨hspace, hintegral, hdecimal, hchar, hdate, htime, hdateTime⟩ := h
  unfold Builtin.typeOf
  rw [if_neg hspace, if_neg hintegral, if_neg hdecimal, if_neg hchar, if_neg hdate, if_neg htime,
    if_neg hdateTime]
  split_ifs
  · exact Builtin.string_le_spaced
  · exact le_rfl

theorem primitive_le {fields : Fields} (h : shape fields = .primitive) :
    builtin (keyword fields "type").shown ≤ spaced := by
  refine builtin_le_spaced fun hmem => ?_
  have hall : ∀ name ∈ partNames, Builtin.typeNames.contains name = false := by decide
  have hpart := hall _ hmem
  rw [isPrimitive_of_shape h] at hpart
  exact absurd hpart (by decide)

theorem format_le (format : String) : builtin (formatRuleName format) ≤ spaced := by
  refine builtin_le_spaced fun hmem => ?_
  have hall : ∀ name ∈ partNames, ¬ "-string".toList <:+ name.toList := by decide
  exact hall _ hmem ⟨format.toList, by simp [formatRuleName]⟩

/-! ## Constants and keys -/

theorem valueText_le {v : Json} (h : v.HasFiniteNumbers) : valueText v ≤ spaced :=
  mul_le_mul' (Grammar.singleton_le_iff.2 (Json.compact_isValue v h)) blanks_le

theorem keyText_le (key : String) : valueText (.str key) ≤ string * ws :=
  mul_le_mul' (Grammar.singleton_le_iff.2 (Json.stringText_mem_string key)) blanks_le

theorem pair_le {K L : Language Char} (hK : K ≤ string * ws) (hL : L ≤ spaced) :
    pair K L ≤ spacedMember := by
  calc
    pair K L ≤ string * ws * ({[':']} * ws) * spaced :=
      mul_le_mul' (mul_le_mul' hK (mark_le ":")) hL
    _ ≤ spacedMember := Standard.pair_le_spacedMember

/-- The keys of additional pairs are strings. -/
theorem otherKeys_le (names : List String) : otherKeys names ≤ string * ws := by
  rw [otherKeys]
  split_ifs
  · exact builtin_le "string"
  · have hchar := RuleTable.itemWithin_table (by decide : "char" ∈ Builtin.names)
    have hspace := RuleTable.itemWithin_table (by decide : "space" ∈ Builtin.names)
    have hbody := Exclusion.rowWithin_body hchar hspace (Exclusion.grows_keys names)
    exact Builtin.languageOf_le hbody.within

/-! ## Lists -/

theorem separated_mark_le (mark' : Language Char) {sep : Language Char} (h : mark' ≤ sep)
    (Ls : List (Language Char)) : separated mark' Ls ≤ separated sep Ls := by
  induction Ls with
  | nil => exact le_rfl
  | cons L rest ih =>
    cases rest with
    | nil => exact le_rfl
    | cons next rest => exact mul_le_mul' (mul_le_mul' le_rfl h) ih

theorem bracketed_le {Ls : List (Language Char)} (h : ∀ L ∈ Ls, L ≤ spaced) :
    bracketed (separated (mark ",") Ls) ≤ spaced := by
  calc
    bracketed (separated (mark ",") Ls)
        ≤ {['[']} * ws * separated ({[',']} * ws) Ls * ({[']']} * ws) :=
      mul_le_mul' (mul_le_mul' (mark_le "[") (separated_mark_le _ (mark_le ",") Ls)) (mark_le "]")
    _ ≤ spaced := Standard.array_le_spaced h

theorem countedList_le (fields : Fields) {item : Language Char} (h : item ≤ spaced) :
    countedList fields item ≤ spaced := by
  unfold countedList
  split
  · intro text htext
    obtain ⟨front, hfront, close, hclose, rfl⟩ := Language.mem_mul.1 htext
    obtain ⟨start, hstart, inner, hinner, rfl⟩ := Language.mem_mul.1 hfront
    obtain ⟨count, -, -, hinner⟩ := Grammar.mem_listed.1 hinner
    have hitems : ∀ L ∈ List.replicate count item, L ≤ spaced := by
      intro L hL
      rwa [(List.mem_replicate.1 hL).2]
    exact bracketed_le hitems (Language.append_mem_mul (Language.append_mem_mul hstart hinner) hclose)
  · exact bot_le

theorem objectLanguage_le {pairOf : String → Language Char} {first optional : List String}
    {extra : Language Char} (hpair : ∀ key ∈ first ++ optional, pairOf key ≤ spacedMember)
    (hextra : extra ≤ spacedMember) : objectLanguage pairOf first optional extra ≤ spaced := by
  rintro text ⟨chosen, count, hsub, htext⟩
  generalize hLs : (first ++ chosen).map pairOf ++ List.replicate count extra = Ls at htext
  have hmembers : ∀ L ∈ Ls, L ≤ spacedMember := by
    intro L hL
    rw [← hLs, List.mem_append] at hL
    rcases hL with hL | hL
    · obtain ⟨key, hkey, rfl⟩ := List.mem_map.1 hL
      exact hpair key (List.mem_append.2 ((List.mem_append.1 hkey).imp_right hsub.mem))
    · rwa [(List.mem_replicate.1 hL).2]
  have hmarks : mark "\x7b" * separated (mark ",") Ls * mark "\x7d" ≤
      {['\x7b']} * ws * separated ({[',']} * ws) Ls * ({['\x7d']} * ws) :=
    mul_le_mul' (mul_le_mul' (mark_le "\x7b") (separated_mark_le _ (mark_le ",") Ls)) (mark_le "\x7d")
  exact Standard.object_le_spaced hmembers (hmarks htext)

/-! ## Strings and integers -/

theorem stringMeaning_le (fields : Fields) : stringMeaning fields ≤ spaced := by
  unfold stringMeaning
  split
  · rename_i low high _
    have hcontent : repeated low high (builtin "char") ≤ Standard.content := by
      refine Grammar.repeated_le_kstar low high (le_trans (builtin_le "char") ?_)
      exact le_rfl
    calc
      {['"']} * repeated low high (builtin "char") * mark "\""
          ≤ {['"']} * Standard.content * ({['"']} * ws) :=
        mul_le_mul' (mul_le_mul' le_rfl hcontent) (mark_le "\"")
      _ = string * ws := by simp only [string, mul_assoc]
      _ ≤ spaced := Builtin.string_le_spaced
  · exact bot_le

/-- The numerals of integers are numbers. -/
theorem integers_le (P : Int → Prop) : IntRange.integers P ≤ Standard.value := by
  rintro text ⟨n, -, rfl⟩
  have hnumber := Standard.integer_le_number (intText_mem_integer n)
  exact Standard.number_le_value hnumber

theorem integerMeaning_le {options : Options} {fields : Fields} (hceiling : HasCeiling options) :
    integerMeaning options fields ≤ spaced := by
  obtain ⟨k, hk⟩ := hceiling
  unfold integerMeaning
  cases hbounds : boundsOf fields with
  | error fault => exact bot_le
  | ok b =>
    dsimp only
    cases hexpression : IntRange.expression b.low b.high options.maxDigits with
    | error fault => exact bot_le
    | ok e =>
      dsimp only
      have htext : "(" ++ e ++ ") space" = "(" ++ e ++ ")" ++ " " ++ "space" := by
        rw [← String.toList_inj]
        simp
      rw [htext]
      have he := IntRange.writes_expression Builtin.table (hk ▸ hexpression)
      have hspace := RuleTable.itemWithin_table (by decide : "space" ∈ Builtin.names)
      exact Builtin.languageOf_le ((he.group.within (integers_le _)).row.beside hspace.row).within

/-! ## Schemas -/

/-- Where a schema lists constants, all numbers in them are finite. -/
def HasFiniteConstants : Json → Prop
  | .obj fields => match shape fields with
    | .const => (keyword fields "const").HasFiniteNumbers
    | .enum => ∀ v ∈ valuesOf (keyword fields "enum"), v.HasFiniteNumbers
    | _ => True
  | _ => True

section Schemas

variable {options : Options} {document : Json} {f : Json → Language Char}

theorem le_spaced_of_sum {α : Type} {g : α → Language Char} {as : List α}
    (h : ∀ a ∈ as, g a ≤ spaced) : (as.map g).sum ≤ spaced := by
  intro text htext
  obtain ⟨L, hL, hmem⟩ := Grammar.mem_sum.1 htext
  obtain ⟨a, ha, rfl⟩ := List.mem_map.1 hL
  exact h a ha hmem

/-- The names in an object are those of declared properties. -/
theorem mem_properties_of_mem_names {fields : Fields} {key : String}
    (h : key ∈ propertyNames options fields) : (key, propertySchema fields key) ∈ properties fields := by
  unfold propertyNames at h
  cases hsort : options.sortProperties ((Assoc.ofPairs (properties fields)).map Prod.fst) with
  | error fault =>
    rw [hsort] at h
    simp at h
  | ok names =>
    rw [hsort] at h
    have hkey := (Options.perm_sortProperties hsort).mem_iff.1 h
    obtain ⟨v, hv⟩ := Option.isSome_iff_exists.1 (Assoc.lookup_isSome_iff.2 hkey)
    rw [propertySchema, hv]
    exact Assoc.mem_of_lookup_ofPairs hv

theorem additionalPairs_le {fields : Fields} (hf : ∀ S ∈ additionalSchemas fields, f S ≤ spaced) :
    additionalPairs options f fields ≤ spacedMember := by
  have hvalue : builtin "value" ≤ spaced := builtin_le_spaced (by decide)
  have hkeys := otherKeys_le (propertyNames options fields)
  unfold additionalPairs
  unfold additionalSchemas at hf
  dsimp only
  split
  · exact pair_le hkeys hvalue
  · exact pair_le hkeys hvalue
  · rename_i inner hne heq
    refine pair_le hkeys (hf _ ?_)
    rw [heq]
    cases inner with
    | nil => exact absurd rfl hne
    | cons first rest => exact List.mem_cons_self
  · exact bot_le

theorem objectMeaning_le {fields : Fields} (hproperties : ∀ x ∈ properties fields, f x.2 ≤ spaced)
    (hadditional : ∀ S ∈ additionalSchemas fields, f S ≤ spaced) :
    objectMeaning options f fields ≤ spaced := by
  refine objectLanguage_le (fun key hkey => ?_) (additionalPairs_le hadditional)
  have hname : key ∈ propertyNames options fields := by
    rcases List.mem_append.1 hkey with hkey | hkey <;> exact List.mem_of_mem_filter hkey
  exact pair_le (keyText_le key) (hproperties _ (mem_properties_of_mem_names hname))

theorem arrayMeaning_le {fields : Fields} (hf : ∀ S ∈ itemSchemas fields, f S ≤ spaced) :
    arrayMeaning f fields ≤ spaced := by
  have hvalue : builtin "value" ≤ spaced := builtin_le_spaced (by decide)
  have hnone : ∀ L ∈ ([] : List (Language Char)), L ≤ spaced := by simp
  unfold arrayMeaning
  unfold itemSchemas at hf
  split
  · exact bracketed_le hnone
  · exact countedList_le fields hvalue
  · exact countedList_le fields hvalue
  · rename_i hfalse htrue hobject
    refine countedList_le fields (hf _ ?_)
    split
    · rename_i b heq
      cases b with
      | true => exact absurd heq htrue
      | false => exact absurd heq hfalse
    · rename_i heq
      exact absurd heq hobject
    · exact List.mem_cons_self

/-- **One step keeps the bound.** If the schemas inside mean values, so does the schema. -/
theorem meaningStep_le (hceiling : HasCeiling options) {S : Json}
    (hfinite : HasFiniteConstants S) (hf : ∀ S' ∈ inside document S, f S' ≤ spaced) :
    meaningStep options document f S ≤ spaced := by
  cases S with
  | obj fields =>
    rw [meaningStep]
    rw [inside] at hf
    rw [HasFiniteConstants] at hfinite
    cases hshape : shape fields with
    | ref =>
      simp only [hshape] at hf ⊢
      cases htarget : referenceTarget document fields with
      | none => exact bot_le
      | some target => exact hf target (by simp [htarget])
    | union =>
      simp only [hshape] at hf ⊢
      exact le_spaced_of_sum hf
    | typeUnion =>
      simp only [hshape] at hf ⊢
      exact le_spaced_of_sum hf
    | const =>
      simp only [hshape] at hfinite ⊢
      exact valueText_le hfinite
    | enum =>
      simp only [hshape] at hfinite ⊢
      exact le_spaced_of_sum fun v hv => valueText_le (hfinite v hv)
    | object =>
      simp only [hshape] at hf ⊢
      exact objectMeaning_le
        (fun x hx => hf _ (List.mem_append_left _ (List.mem_map_of_mem hx)))
        (fun S hS => hf S (List.mem_append_right _ hS))
    | tuple =>
      simp only [hshape] at hf ⊢
      refine bracketed_le fun L hL => ?_
      obtain ⟨S, hS, rfl⟩ := List.mem_map.1 hL
      exact hf S hS
    | array =>
      simp only [hshape] at hf ⊢
      exact arrayMeaning_le hf
    | uuid => exact builtin_le_spaced (by decide)
    | formatString => exact format_le _
    | boundedString => exact stringMeaning_le fields
    | intRange => exact integerMeaning_le hceiling
    | genericObject => exact builtin_le_spaced (by decide)
    | primitive => exact primitive_le hshape
    | allOf => exact bot_le
    | pattern => exact bot_le
    | unrecognized => exact bot_le
  | _ => exact bot_le

/-- **Schemas mean JSON values**: the bound holds of the least solution, as each step keeps it for
    the schemas that the document reaches. -/
theorem language_le_spaced (hceiling : HasCeiling options)
    (hfinite : ∀ S, Reaches document document S → HasFiniteConstants S) {S : Json}
    (hS : Reaches document document S) : language options document S ≤ spaced := by
  let bound : Json → Language Char := fun S => {text | Reaches document document S → text ∈ spaced}
  have hbound {S : Json} (hreach : Reaches document document S) : bound S ≤ spaced :=
    fun text htext => htext hreach
  have hstep : meaningStep options document bound ≤ bound := by
    intro S text htext hreach
    exact meaningStep_le hceiling (hfinite S hreach)
      (fun S' hS' => hbound (hreach.tail hS')) htext
  have hle : language options document ≤ bound := OrderHom.lfp_le _ hstep
  exact le_trans (hle S) (hbound hS)

end Schemas

end Schema

end SchemaGrammar
