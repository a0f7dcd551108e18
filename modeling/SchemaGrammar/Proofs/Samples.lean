import SchemaGrammar.Proofs.Documents
import SchemaGrammar.Proofs.Exclusions
import SchemaGrammar.Proofs.Schema.Builders
import SchemaGrammar.Proofs.Schema.Numbers

set_option autoImplicit false

/-! # Serialised values

A schema for lists of anything has the built-in rule for lists as its grammar. It takes the compact
texts of values whose numbers are integers with few enough digits, except where a string or a key has
the delete character: this is written as it is, and the rule for characters leaves it out
(`accepts_samples`, `delete_is_refused`). -/

namespace SchemaGrammar

open Computability

open Grammar (listed)

/-! ## Parts of values -/

namespace Json

mutual

/-- All numbers in a value, and all its strings and keys, pass a test. -/
def Every (P : Number → Prop) (Q : String → Prop) : Json → Prop
  | .null => True
  | .bool _ => True
  | .num x => P x
  | .str s => Q s
  | .arr items => EveryItem P Q items
  | .obj fields => EveryField P Q fields

def EveryItem (P : Number → Prop) (Q : String → Prop) : List Json → Prop
  | [] => True
  | v :: rest => Every P Q v ∧ EveryItem P Q rest

def EveryField (P : Number → Prop) (Q : String → Prop) : List (String × Json) → Prop
  | [] => True
  | (key, v) :: rest => Q key ∧ Every P Q v ∧ EveryField P Q rest

end

/-- An integer with few enough digits for the rule for numbers. -/
def IsShort (x : Number) : Prop :=
  ∃ n : Int, x = .whole n ∧ IntRange.width n ≤ Schema.digitCap

/-- A string without the delete character. -/
def IsTypable (s : String) : Prop :=
  '\x7f' ∉ s.toList

end Json

/-! ## Compact texts are taken -/

namespace Schema

theorem mem_builtin_value {name : String} (hname : name ∈ kinds) {text : List Char}
    (h : text ∈ builtin name) : text ∈ builtin "value" := by
  have hmem : builtin name ∈ kinds.map builtin := List.mem_map_of_mem hname
  rw [builtin_value, Grammar.mem_sum]
  exact ⟨_, hmem, h⟩

/-- An integer with few digits, as it is written. -/
theorem intText_mem_number {n : Int} (h : IntRange.width n ≤ digitCap) :
    (intText n).toList ∈ builtin "number" := by
  have hnumber : (1 + {['-']}) * capped Standard.natural ≤ builtin "number" := by
    rw [builtin_number]
    calc
      (1 + {['-']}) * capped Standard.natural ≤ magnitude :=
        le_mul_of_one_le_right' (Standard.one_le_optional _)
      _ ≤ cappedNumber Standard.natural := le_mul_of_one_le_right' (Standard.one_le_optional _)
      _ ≤ cappedNumber Standard.natural * blanks :=
        le_mul_of_one_le_right' (Grammar.singleton_le_iff.2 nil_mem_blanks)
  exact hnumber (intText_mem_capped h)

/-- A string as it is written, if it has no delete character. -/
theorem stringText_mem_string {s : String} (h : Json.IsTypable s) :
    (Json.stringText s).toList ∈ builtin "string" := by
  rw [builtin_string, Exclusion.builtin_char, Exclusion.kstar_character, Json.stringText,
    String.toList_ofList]
  exact mem_quoted.2 ⟨_, Exclusion.isSpelled_escape h, [], nil_mem_blanks, rfl⟩

/-- Texts with commas between them. -/
theorem intercalate_mem_listed {L : Language Char} {texts : List String}
    (h : ∀ text ∈ texts, text.toList ∈ L) :
    (",".intercalate texts).toList ∈ listed (mark ",") 0 none L := by
  refine ⟨texts.length, Nat.zero_le _, by simp, ?_⟩
  have hmem := Json.intercalate_mem_separated (mem_mark ",") h
  rwa [List.map_const'] at hmem

theorem compact_arr_mem_array {items : List Json}
    (h : ∀ text ∈ Json.compactItems items, text.toList ∈ builtin "value") :
    (Json.compact (.arr items)).toList ∈ builtin "array" := by
  rw [builtin_array, Json.compact, String.toList_append, String.toList_append]
  exact Language.append_mem_mul
    (Language.append_mem_mul (mem_mark "[") (intercalate_mem_listed h)) (mem_mark "]")

theorem compact_obj_mem_object {fields : List (String × Json)}
    (h : ∀ text ∈ Json.compactFields fields, text.toList ∈ pair (builtin "string") (builtin "value")) :
    (Json.compact (.obj fields)).toList ∈ builtin "object" := by
  rw [builtin_object, Json.compact, String.toList_append, String.toList_append]
  exact Language.append_mem_mul
    (Language.append_mem_mul (mem_mark "\x7b") (intercalate_mem_listed h)) (mem_mark "\x7d")

mutual

/-- **Compact texts are taken as values.** -/
theorem compact_mem_value : ∀ v : Json, v.Every Json.IsShort (fun _ => True) →
    v.Every (fun _ => True) Json.IsTypable → v.compact.toList ∈ builtin "value"
  | .null, _, _ => by
    refine mem_builtin_value (by decide : "null" ∈ kinds) ?_
    rw [builtin_null]
    exact mem_mark "null"
  | .bool b, _, _ => by
    refine mem_builtin_value (by decide : "boolean" ∈ kinds) ?_
    rw [builtin_boolean]
    cases b
    · exact .inr (mem_mark "false")
    · exact .inl (mem_mark "true")
  | .num x, hshort, _ => by
    obtain ⟨n, rfl, hwidth⟩ := hshort
    exact mem_builtin_value (by decide : "number" ∈ kinds) (intText_mem_number hwidth)
  | .str s, _, htypable =>
    mem_builtin_value (by decide : "string" ∈ kinds) (stringText_mem_string htypable)
  | .arr items, hshort, htypable => by
    refine mem_builtin_value (by decide : "array" ∈ kinds) ?_
    exact compact_arr_mem_array (compactItems_mem_value items hshort htypable)
  | .obj fields, hshort, htypable => by
    refine mem_builtin_value (by decide : "object" ∈ kinds) ?_
    exact compact_obj_mem_object (compactFields_mem_pair fields hshort htypable)

theorem compactItems_mem_value : ∀ items : List Json,
    Json.EveryItem Json.IsShort (fun _ => True) items →
    Json.EveryItem (fun _ => True) Json.IsTypable items →
    ∀ text ∈ Json.compactItems items, text.toList ∈ builtin "value"
  | [], _, _ => by simp [Json.compactItems]
  | v :: rest, hshort, htypable => by
    have hrest := compactItems_mem_value rest hshort.2 htypable.2
    exact List.forall_mem_cons.2 ⟨compact_mem_value v hshort.1 htypable.1, hrest⟩

theorem compactFields_mem_pair : ∀ fields : List (String × Json),
    Json.EveryField Json.IsShort (fun _ => True) fields →
    Json.EveryField (fun _ => True) Json.IsTypable fields →
    ∀ text ∈ Json.compactFields fields,
      text.toList ∈ pair (builtin "string") (builtin "value")
  | [], _, _ => by simp [Json.compactFields]
  | (key, v) :: rest, hshort, htypable => by
    have hkey := stringText_mem_string htypable.1
    have hvalue := compact_mem_value v hshort.2.1 htypable.2.1
    have hrest := compactFields_mem_pair rest hshort.2.2 htypable.2.2
    refine List.forall_mem_cons.2 ⟨?_, hrest⟩
    rw [String.toList_append, String.toList_append]
    exact Language.append_mem_mul (Language.append_mem_mul hkey (mem_mark ":")) hvalue

end

/-! ## The delete character is not -/

/-- No built-in rule takes the delete character. -/
theorem notMem_of_mem_builtin {name : String} {text : List Char} (h : text ∈ builtin name) :
    '\x7f' ∉ text := by
  have hall : ∀ rule ∈ Builtin.nodes, rule.2.avoids '\x7f' = true := by decide
  have hrules (other : String) (body : Node) (hfind : Grammar.find? Builtin.nodes other = some body) :
      body.avoids '\x7f' = true := hall _ (Assoc.mem_of_lookup hfind)
  cases hrule : Builtin.find? name with
  | none =>
    rw [builtin, hrule] at h
    exact absurd h (by simp)
  | some rule =>
    obtain ⟨node, hnode, -⟩ := Builtin.exists_node (RuleTable.mem_bodies hrule)
    rw [builtin_eq (by rw [hrule]; rfl) hnode] at h
    exact Grammar.notMem_of_derives hrules h (hrules name node hnode)

end Schema

namespace Json

theorem mem_intercalate {texts : List String} {text : String} {c : Char} (htext : text ∈ texts)
    (hc : c ∈ text.toList) : c ∈ (",".intercalate texts).toList := by
  induction texts with
  | nil => cases htext
  | cons first rest ih =>
    cases rest with
    | nil => simpa [List.mem_singleton.1 htext] using hc
    | cons next rest =>
      rw [String.intercalate_cons_cons, String.toList_append, String.toList_append]
      rcases List.mem_cons.1 htext with rfl | hrest
      · exact List.mem_append_left _ (List.mem_append_left _ hc)
      · exact List.mem_append_right _ (ih hrest)

/-- The delete character is written as it is. -/
theorem isTypable_of_stringText {s : String} (h : '\x7f' ∉ (stringText s).toList) : IsTypable s := by
  intro hmem
  refine h ?_
  have hescape : '\x7f' ∈ escape s.toList := List.mem_flatMap.2 ⟨_, hmem, by decide⟩
  rw [stringText, String.toList_ofList]
  simp [hescape]

mutual

theorem typable_of_compact : ∀ v : Json, '\x7f' ∉ v.compact.toList →
    v.Every (fun _ => True) IsTypable
  | .null => fun _ => trivial
  | .bool _ => fun _ => trivial
  | .num _ => fun _ => trivial
  | .str s => by
    intro h
    rw [compact] at h
    exact isTypable_of_stringText h
  | .arr items => by
    intro h
    refine typable_of_compactItems items fun text htext hmem => h ?_
    rw [compact, String.toList_append, String.toList_append]
    exact List.mem_append_left _ (List.mem_append_right _ (mem_intercalate htext hmem))
  | .obj fields => by
    intro h
    refine typable_of_compactFields fields fun text htext hmem => h ?_
    rw [compact, String.toList_append, String.toList_append]
    exact List.mem_append_left _ (List.mem_append_right _ (mem_intercalate htext hmem))

theorem typable_of_compactItems : ∀ items : List Json,
    (∀ text ∈ compactItems items, '\x7f' ∉ text.toList) → EveryItem (fun _ => True) IsTypable items
  | [], _ => trivial
  | v :: rest, h => by
    obtain ⟨hv, hrest⟩ := List.forall_mem_cons.1 h
    exact ⟨typable_of_compact v hv, typable_of_compactItems rest hrest⟩

theorem typable_of_compactFields : ∀ fields : List (String × Json),
    (∀ text ∈ compactFields fields, '\x7f' ∉ text.toList) → EveryField (fun _ => True) IsTypable fields
  | [], _ => trivial
  | (key, v) :: rest, h => by
    obtain ⟨hfield, hrest⟩ := List.forall_mem_cons.1 h
    rw [String.toList_append, String.toList_append] at hfield
    have hkey : '\x7f' ∉ (stringText key).toList := fun hmem => hfield (by simp [hmem])
    have hvalue : '\x7f' ∉ v.compact.toList := fun hmem => hfield (by simp [hmem])
    exact ⟨isTypable_of_stringText hkey, typable_of_compact v hvalue, typable_of_compactFields rest hrest⟩

end

end Json

namespace Compiler

/-! ## The schema -/

/-- A schema for lists of anything. -/
def anyList : Json.Fields :=
  [("type", .str "array"), ("items", .bool true)]

theorem language_anyList (options : Options) (document : Json) :
    Schema.language options document (.obj anyList) = Schema.builtin "array" := by
  have hshape : Schema.shape anyList = .array := by decide
  have hitems : Schema.keyword anyList "items" = .bool true := rfl
  have hcounts : Schema.counts? anyList "minItems" "maxItems" = some (0, none) := rfl
  rw [Schema.builtin_array, Schema.language_eq, Schema.meaningStep, hshape]
  dsimp only
  rw [Schema.arrayMeaning, hitems]
  dsimp only
  rw [Schema.countedList, hcounts]

theorem accepts_anyList (options : Options) : ∃ t g, compile options (.obj anyList) = .ok t ∧
    Grammar.ofText t.text = .ok g ∧ g.Accepts (Schema.builtin "array") := by
  have hshape : Schema.shape anyList = .array := by decide
  -- the items have a built-in rule, so it does not matter how other schemas are visited
  have hran : Work.result? (Schema.visitArray (fun _ _ => throw .endless)
      ⟨anyList, "", Schema.ruleNameFor ""⟩ (Session.new [.obj anyList])) = some "root" := by
    decide +kernel
  obtain ⟨s, hrun⟩ := Work.exists_of_result? hran
  have hbuilder (depth : Nat) :
      Schema.visitWith (Schema.visit options depth) options (.obj anyList) "" =
        Schema.visitArray (fun _ _ => throw .endless) ⟨anyList, "", Schema.ruleNameFor ""⟩ := by
    simp only [Schema.visitWith, hshape]
    rfl
  have hexact : Schema.IsExact options (.obj anyList) True fun _ _ => throw .endless :=
    fun _ _ _ _ _ _ hvisited => absurd hvisited Work.throw_ne_ok
  have hplain : Schema.IsPlain (.obj anyList) := by
    rw [Schema.IsPlain, hshape]
    have hzero : Grammar.IsWritable 0 := Nat.pow_pos (by decide)
    exact ⟨0, none, rfl, hzero, by simp⟩
  have hcompiled := Schema.visitArray_compiled hexact (soundSession_new options (.obj anyList) True)
    (fun _ => by decide) (Schema.Reaches.refl _ _) (fun _ hbusy => hbusy.elim) hshape hplain hrun
  rw [← language_anyList options (.obj anyList)]
  exact accepts_of_compiled (Metaschema.checkIn_of_isSchema _ rfl rfl rfl) rfl hbuilder hrun hcompiled
    (Schema.start_of_shape (by simp [hshape]))

/-- Lists of one value, as they are written. -/
theorem compact_mem_array {v : Json} (hshort : v.Every Json.IsShort fun _ => True) :
    (Json.arr [v]).compact.toList ∈ Schema.builtin "array" ↔ v.Every (fun _ => True) Json.IsTypable := by
  constructor
  · intro hmem
    have htypable := Json.typable_of_compact _ (Schema.notMem_of_mem_builtin hmem)
    exact htypable.1
  · intro htypable
    exact Schema.compact_arr_mem_array
      (Schema.compactItems_mem_value [v] ⟨hshort, trivial⟩ ⟨htypable, trivial⟩)

/-- **Serialised values are accepted unless they hold the delete character.** The grammar of a schema
    for lists of anything accepts the compact text of a list of one value, whose numbers are integers
    with at most sixteen digits, if and only if no string and no key in it has the delete character. -/
theorem accepts_samples {v : Json} (h : v.Every Json.IsShort fun _ => True) (options : Options) :
    ∃ t g, compile options (.obj anyList) = .ok t ∧ Grammar.ofText t.text = .ok g ∧
      ∀ order : Grammar.Order,
        ∃ verdict, Grammar.checkIn order g (Json.arr [v]).compact Grammar.startRule = .ok verdict ∧
          (verdict.accepted = true ↔ v.Every (fun _ => True) Json.IsTypable) := by
  obtain ⟨t, g, hcompile, hread, haccepts⟩ := accepts_anyList options
  refine ⟨t, g, hcompile, hread, fun order => ?_⟩
  obtain ⟨verdict, hv, hiff⟩ := haccepts order (Json.arr [v]).compact
  exact ⟨verdict, hv, hiff.trans (compact_mem_array h)⟩

/-- A value of each kind. -/
def everyKind : Json :=
  .obj [("a\n", .arr [.null, .bool true, .num (.whole (-7))]), ("é", .str "\"")]

theorem accepts_samples_everyKind : everyKind.Every Json.IsShort (fun _ => True) ∧ ∃ t g,
    compile .standard (.obj anyList) = .ok t ∧ Grammar.ofText t.text = .ok g ∧
      ∀ order : Grammar.Order,
        ∃ verdict, Grammar.checkIn order g (Json.arr [everyKind]).compact Grammar.startRule =
          .ok verdict ∧ verdict.accepted = true := by
  have hshort : everyKind.Every Json.IsShort fun _ => True :=
    ⟨trivial, ⟨trivial, trivial, ⟨-7, rfl, by decide⟩, trivial⟩, trivial, trivial, trivial⟩
  have hline : Json.IsTypable "a\n" := by unfold Json.IsTypable; decide
  have haccent : Json.IsTypable "é" := by unfold Json.IsTypable; decide
  have hquote : Json.IsTypable "\"" := by unfold Json.IsTypable; decide
  have htypable : everyKind.Every (fun _ => True) Json.IsTypable :=
    ⟨hline, ⟨trivial, trivial, trivial, trivial⟩, haccent, hquote, trivial⟩
  obtain ⟨t, g, hcompile, hread, haccepts⟩ := accepts_samples hshort .standard
  refine ⟨hshort, t, g, hcompile, hread, fun order => ?_⟩
  obtain ⟨verdict, hv, hiff⟩ := haccepts order
  exact ⟨verdict, hv, hiff.2 htypable⟩

/-- A list of a string with nothing but the delete character is refused. -/
theorem delete_is_refused : (Json.str "\x7f").Every Json.IsShort (fun _ => True) ∧ ∃ t g verdict,
    compile .standard (.obj anyList) = .ok t ∧ Grammar.ofText t.text = .ok g ∧
      Grammar.checkIn .ascending g (Json.arr [.str "\x7f"]).compact Grammar.startRule = .ok verdict ∧
      verdict.accepted = false := by
  obtain ⟨t, g, hcompile, hread, haccepts⟩ := accepts_anyList .standard
  obtain ⟨verdict, hv, hiff⟩ := haccepts .ascending (Json.arr [.str "\x7f"]).compact
  refine ⟨trivial, t, g, verdict, hcompile, hread, hv, Bool.eq_false_iff.2 fun haccepted => ?_⟩
  have hshort : (Json.str "\x7f").Every Json.IsShort fun _ => True := trivial
  have htypable : Json.IsTypable "\x7f" := (compact_mem_array hshort).1 (hiff.1 haccepted)
  exact htypable (by decide)

end Compiler

end SchemaGrammar
