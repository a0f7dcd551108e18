import SchemaGrammar.Proofs.Documents

set_option autoImplicit false

/-! # Constants that several lists share

A combined schema whose branches all list constants stands for the constants that the lists share,
told apart by their JSON texts (`accepts_common_constants`). Where they share none, no value is left,
but the schema is then built like one that lists no constants at all: as an object without properties
(`disjoint_lists_accept_an_object`). -/

namespace SchemaGrammar

open Json (Fields)

namespace Schema

/-! ## Lists of texts -/

/-- The text of a value is in every list. -/
def IsCommon (lists : List (List Json)) (value : Json) : Prop :=
  ∀ values ∈ lists, value.compact ∈ values.map Json.compact

/-- The texts of the lists, each once. -/
def textsOf (lists : List (List Json)) : List (List String) :=
  lists.map fun values => (values.map Json.compact).eraseDups

theorem mem_commonConstants_iff {lists : List (List String)} (hne : lists ≠ []) {text : String} :
    text ∈ commonConstants lists ↔ ∀ list ∈ lists, text ∈ list := by
  obtain ⟨first, others, rfl⟩ := List.exists_cons_of_ne_nil hne
  simp [commonConstants]

theorem mem_common_iff {lists : List (List Json)} (hne : lists ≠ []) {text : String} :
    text ∈ commonConstants (textsOf lists) ↔
      ∃ value, IsCommon lists value ∧ value.compact = text := by
  have htexts : textsOf lists ≠ [] := by simpa [textsOf] using hne
  have hmem : text ∈ commonConstants (textsOf lists) ↔
      ∀ values ∈ lists, text ∈ values.map Json.compact := by
    rw [mem_commonConstants_iff htexts, textsOf, List.forall_mem_map]
    simp only [List.mem_eraseDups]
  rw [hmem]
  constructor
  · intro hall
    obtain ⟨values, rest, rfl⟩ := List.exists_cons_of_ne_nil hne
    obtain ⟨value, -, rfl⟩ := List.mem_map.1 (hall values (by simp))
    exact ⟨value, hall, rfl⟩
  · rintro ⟨value, hcommon, rfl⟩
    exact hcommon

/-! ## Branches -/

/-- A branch that lists constants, itself or by what it refers to, and that says nothing about
    properties. -/
inductive ListsConstants (document : Json) : Json → List Json → Prop where
  | direct {fields : Fields} {values : List Json}
      (enum : Fields.get? fields "enum" = some (.arr values))
      (only : ∀ key ∈ ["$ref", "anyOf", "properties"], Fields.get? fields key = none) :
      ListsConstants document (.obj fields) values
  | byReference {fields target : Fields} {ref : String} {values : List Json}
      (refers : Fields.get? fields "$ref" = some (.str ref))
      (single : Fields.get? fields "anyOf" = none)
      (leads : targetOf document ref = some (.obj target))
      (enum : Fields.get? target "enum" = some (.arr values))
      (only : Fields.get? target "properties" = none) :
      ListsConstants document (.obj fields) values

section Branches

variable {document branch : Json} {values : List Json}

theorem properties_eq_nil {fields : Fields} (h : Fields.get? fields "properties" = none) :
    properties fields = [] := by
  simp [properties, declaredProperties, orElse, h, fieldsFor]

theorem ListsConstants.branchParts (h : ListsConstants document branch values) :
    Schema.branchParts branch = [branch] := by
  cases h with
  | direct enum only =>
    have hany := only "anyOf" (by decide)
    simp [Schema.branchParts, Fields.has, hany]
  | byReference refers single leads enum only =>
    simp [Schema.branchParts, Fields.has, single]

/-- The fields that count. -/
theorem ListsConstants.partFields (h : ListsConstants document branch values) :
    Fields.get? (Schema.partFields document branch) "enum" = some (.arr values) ∧
      Fields.get? (Schema.partFields document branch) "properties" = none := by
  cases h with
  | direct enum only =>
    have href := only "$ref" (by decide)
    have hpart : ∀ fields, Fields.get? fields "$ref" = none →
        Schema.partFields document (.obj fields) = fields := by
      intro fields hnone
      simp [Schema.partFields, partValue, Fields.has, hnone]
    rw [hpart _ href]
    exact ⟨enum, only "properties" (by decide)⟩
  | @byReference fields target ref values refers single leads enum only =>
    have hpart : Schema.partFields document (.obj fields) = target := by
      simp [Schema.partFields, partValue, Fields.has, refers, referenceTarget, keyword, leads]
    rw [hpart]
    exact ⟨enum, only⟩

/-- What branches that list constants add up to. -/
theorem merged_of_lists {branches : List Json} {lists : List (List Json)} {m : Merged}
    (h : List.Forall₂ (ListsConstants document) branches lists)
    (hm : Holds document m (branches.flatMap Schema.branchParts)) :
    m.properties = [] ∧ m.enums = textsOf lists := by
  rw [hm.1, hm.2]
  clear hm
  induction h with
  | nil => exact ⟨rfl, rfl⟩
  | @cons branch values branches lists hfirst _ ih =>
    obtain ⟨henum, hproperties⟩ := hfirst.partFields
    have hconstants : partConstants document branch = some ((values.map Json.compact).eraseDups) := by
      simp [partConstants, henum, valuesOf, elements]
    simp only [List.flatMap_cons, hfirst.branchParts, List.singleton_append, List.filterMap_cons,
      hconstants, properties_eq_nil hproperties, List.nil_append, ih.1, ih.2]
    exact ⟨trivial, rfl⟩

end Branches

/-! ## What is built -/

/-- The body of the rule for combined lists of constants: a choice of the texts that they share, or the
    object without properties. -/
def combinedBody (lists : List (List Json)) : String :=
  if (commonConstants (textsOf lists)).isEmpty then
    "\"\x7b\" space  \"\x7d\" space"
  else choiceOf ((Assoc.sortNames (commonConstants (textsOf lists))).map Grammar.literalText)

/-- What combined lists of constants stand for in a grammar: the texts of the values that are common to
    them, or the object without properties if none is. -/
def commonLanguage (lists : List (List Json)) : Language Char :=
  {text | (∃ value, IsCommon lists value ∧ text ∈ valueText value) ∨
    (∀ value, ¬ IsCommon lists value) ∧ text ∈ mark "\x7b" * mark "\x7d"}

section Language

variable {lists : List (List Json)} (hne : lists ≠ [])

include hne

theorem commonLanguage_of_shared (hshared : commonConstants (textsOf lists) ≠ []) :
    commonLanguage lists =
      ((Assoc.sortNames (commonConstants (textsOf lists))).map mark).sum := by
  -- the second half of the language is out, as there is a shared constant
  obtain ⟨text₀, hmem₀⟩ := List.exists_mem_of_ne_nil _ hshared
  obtain ⟨value₀, hvalue₀, -⟩ := (mem_common_iff hne).1 hmem₀
  ext text
  have hsum : text ∈ ((Assoc.sortNames (commonConstants (textsOf lists))).map mark).sum ↔
      ∃ value, IsCommon lists value ∧ text ∈ valueText value := by
    rw [Grammar.mem_sum]
    simp only [List.mem_map, (List.mergeSort_perm _ Assoc.nameLe).mem_iff, Assoc.sortNames,
      mem_common_iff hne]
    constructor
    · rintro ⟨L, ⟨s, ⟨value, hvalue, rfl⟩, rfl⟩, hmem⟩
      exact ⟨value, hvalue, hmem⟩
    · rintro ⟨value, hvalue, hmem⟩
      exact ⟨_, ⟨_, ⟨value, hvalue, rfl⟩, rfl⟩, hmem⟩
  exact (or_iff_left fun h => h.1 value₀ hvalue₀).trans hsum.symm

theorem commonLanguage_of_disjoint (hdisjoint : commonConstants (textsOf lists) = []) :
    commonLanguage lists = mark "\x7b" * mark "\x7d" := by
  have hnone (value : Json) : ¬ IsCommon lists value := by
    intro hvalue
    have hmem := (mem_common_iff hne).2 ⟨value, hvalue, rfl⟩
    rw [hdisjoint] at hmem
    cases hmem
  ext text
  exact (or_iff_right fun ⟨value, hvalue, _⟩ => hnone value hvalue).trans (and_iff_right hnone)

theorem writes_combinedBody {t : RuleTable} (h : t.Complete) :
    t.Writes (combinedBody lists) (commonLanguage lists) := by
  unfold combinedBody
  split_ifs with hempty
  · rw [commonLanguage_of_disjoint hne (List.isEmpty_iff.1 hempty)]
    have hobject := writes_object h .nil (RuleTable.writesRow_empty t)
      fun _ => Grammar.apart_of_head (by simp)
    simpa [Grammar.separated] using hobject
  · have hshared : commonConstants (textsOf lists) ≠ [] := fun hnil => hempty (by simp [hnil])
    have hsorted : Assoc.sortNames (commonConstants (textsOf lists)) ≠ [] := by
      intro hnil
      have hperm := List.mergeSort_perm (commonConstants (textsOf lists)) Assoc.nameLe
      rw [← Assoc.sortNames, hnil] at hperm
      exact hshared hperm.nil_eq.symm
    rw [commonLanguage_of_shared hne hshared]
    exact writes_choiceOf h hsorted

end Language

theorem visitAllOf_of_lists {visit : Visit} {options : Options} {fields : Fields} {hint name : String}
    {s s' : Session} {document : Json} {branches : List Json} {lists : List (List Json)}
    (hs : s.Orderly False) (hrecords : s.resolver.Records document)
    (hbranches : Fields.get? fields "allOf" = some (.arr branches))
    (hlists : List.Forall₂ (ListsConstants document) branches lists)
    (hrun : visitAllOf visit options ⟨fields, hint, ruleNameFor hint⟩ s = .ok name s') :
    Session.addRule (ruleNameFor hint) (combinedBody lists) s = .ok name s' := by
  obtain ⟨values, s₁, helements, hmore⟩ := Work.bind_eq_ok.1 hrun
  obtain ⟨hvalues, rfl⟩ := Work.ofExcept_eq_ok.1 helements
  obtain rfl : branches = values := by
    simpa [Site.keyword, Site.keyword?, hbranches, elements] using hvalues
  obtain ⟨m, s₂, hfold, hbuild⟩ := Work.bind_eq_ok.1 hmore
  -- adding branches changes nothing but what is added up
  have hruns : Session.Runs False True (fun _ => True) (fun m s₁ => s₁ = s ∧
      (s.resolver.Records document → Holds document m ([] ++ branches.flatMap branchParts)))
      (branches.foldlM addBranch ⟨[], [], []⟩) s :=
    runs_addBranches hs (fun _ _ _ _ => trivial) fun _ => ⟨rfl, rfl⟩
  obtain ⟨-, rfl, hholds⟩ := (Work.leads_iff.1 hruns).1 m s₂ hfold
  obtain ⟨hproperties, henums⟩ := merged_of_lists hlists (hholds hrecords)
  rw [henums, hproperties] at hbuild
  unfold combinedBody
  split_ifs with hempty
  · rw [if_pos hempty] at hbuild
    exact hbuild
  · rw [if_neg hempty] at hbuild
    exact hbuild

end Schema

/-! ## The grammars -/

namespace Compiler

open Schema (IsCommon ListsConstants commonLanguage mark valueText)

section Lists

variable {options : Options} {fields : Fields} {t : RuleTable} {branches : List Json}
  {lists : List (List Json)} (h : compile options (.obj fields) = .ok t)
  (hshape : Schema.shape fields = .allOf)
  (hbranches : Fields.get? fields "allOf" = some (.arr branches)) (hne : branches ≠ [])
  (hlists : List.Forall₂ (ListsConstants (.obj fields)) branches lists)

include h hshape hbranches hne hlists

theorem accepts_commonLanguage : ∃ g, Grammar.ofText t.text = .ok g ∧ g.Accepts (commonLanguage lists) := by
  have hlistsne : lists ≠ [] := by
    rintro rfl
    exact hne (List.forall₂_nil_right_iff.1 hlists)
  obtain ⟨resolver, depth, name, s, hrecords, rfl, hrun⟩ := exists_visited h
  simp only [Schema.visitWith, hshape] at hrun
  have hroot := Schema.visitAllOf_of_lists (orderly_prepared resolver) hrecords hbranches hlists hrun
  exact accepts_of_root hroot (Schema.writes_combinedBody hlistsne (RuleTable.sound_new True).complete)

/-- **Combined lists of constants come to what they share.** Take a combined schema that compiles and
    whose branches, of which there is one at least, list constants, directly or by a reference. Its
    grammar can be read. If the text of some value is in every list, the grammar accepts the texts of
    such values, with blanks behind them, and no others. If there is none, it accepts the object without
    properties. -/
theorem accepts_common_constants : ∃ g, Grammar.ofText t.text = .ok g ∧
    ∀ (order : Grammar.Order) (text : String),
      ∃ v, Grammar.checkIn order g text Grammar.startRule = .ok v ∧
        (v.accepted = true ↔ (∃ value, IsCommon lists value ∧ text.toList ∈ valueText value) ∨
          (∀ value, ¬ IsCommon lists value) ∧ text.toList ∈ mark "\x7b" * mark "\x7d") :=
  accepts_commonLanguage h hshape hbranches hne hlists

end Lists

/-- The constants `a` and `b`, and what a definition lists: `b` and `c`. -/
def overlapping : Fields :=
  [("allOf", .arr [.obj [("enum", .arr [.str "a", .str "b"])], .obj [("$ref", .str "#/$defs/later")]]),
    ("$defs", .obj [("later", .obj [("enum", .arr [.str "b", .str "c"])])])]

theorem accepts_common_constants_overlapping : ∃ t g,
    compile .standard (.obj overlapping) = .ok t ∧ Grammar.ofText t.text = .ok g ∧
      ∀ (order : Grammar.Order) (text : String),
        ∃ v, Grammar.checkIn order g text Grammar.startRule = .ok v ∧
          (v.accepted = true ↔ text.toList ∈ mark "\"b\"") := by
  obtain ⟨t, hcompile⟩ : ∃ t, compile .standard (.obj overlapping) = .ok t :=
    exists_of_isOk (by decide +kernel)
  have hsegments : Pointer.segments "#/$defs/later" = ["$defs".toList, "later".toList] := by
    decide +kernel
  have hleads : Schema.targetOf (.obj overlapping) "#/$defs/later" =
      some (.obj [("enum", .arr [.str "b", .str "c"])]) := by
    rw [Schema.targetOf, hsegments]
    rfl
  have hlists : List.Forall₂ (ListsConstants (.obj overlapping))
      [.obj [("enum", .arr [.str "a", .str "b"])], .obj [("$ref", .str "#/$defs/later")]]
      [[.str "a", .str "b"], [.str "b", .str "c"]] :=
    .cons (.direct rfl (by decide)) (.cons (.byReference rfl rfl hleads rfl rfl) .nil)
  obtain ⟨g, hread, haccepts⟩ :=
    accepts_common_constants hcompile (by decide) rfl (List.cons_ne_nil _ _) hlists
  refine ⟨t, g, hcompile, hread, fun order text => ?_⟩
  obtain ⟨v, hv, hiff⟩ := haccepts order text
  have hcommon (value : Json) : IsCommon [[.str "a", .str "b"], [.str "b", .str "c"]] value ↔
      value.compact = "\"b\"" := by
    have htexts : [.str "a", .str "b"].map Json.compact = ["\"a\"", "\"b\""] ∧
        [.str "b", .str "c"].map Json.compact = ["\"b\"", "\"c\""] := by
      decide +kernel
    unfold IsCommon
    rw [List.forall_mem_cons, List.forall_mem_cons, htexts.1, htexts.2]
    simp only [List.mem_cons, List.not_mem_nil, or_false]
    constructor
    · rintro ⟨hfirst | hb, hsecond, -⟩
      · rw [hfirst] at hsecond
        exact absurd hsecond (by decide)
      · exact hb
    · intro hb
      simp [hb]
  have hb : IsCommon [[.str "a", .str "b"], [.str "b", .str "c"]] (.str "b") :=
    (hcommon _).2 (by decide +kernel)
  refine ⟨v, hv, hiff.trans ⟨?_, fun hmem => .inl ⟨.str "b", hb, ?_⟩⟩⟩
  · rintro (⟨value, hvalue, hmem⟩ | ⟨hnone, -⟩)
    · rwa [valueText, (hcommon value).1 hvalue] at hmem
    · exact absurd hb (hnone _)
  · rwa [valueText, (hcommon _).1 hb]

/-- The constant `a`, and the constant `b`. -/
def disjoint : Fields :=
  [("allOf", .arr [.obj [("enum", .arr [.str "a"])], .obj [("enum", .arr [.str "b"])]])]

/-- No value is in both lists, and still the grammar accepts an object. -/
theorem disjoint_lists_accept_an_object : ∃ t g v,
    compile .standard (.obj disjoint) = .ok t ∧ Grammar.ofText t.text = .ok g ∧
      (∀ value, ¬ IsCommon [[.str "a"], [.str "b"]] value) ∧
      Grammar.checkIn .ascending g "\x7b\x7d" Grammar.startRule = .ok v ∧ v.accepted = true := by
  obtain ⟨t, hcompile⟩ : ∃ t, compile .standard (.obj disjoint) = .ok t :=
    exists_of_isOk (by decide +kernel)
  have hlists : List.Forall₂ (ListsConstants (.obj disjoint))
      [.obj [("enum", .arr [.str "a"])], .obj [("enum", .arr [.str "b"])]] [[.str "a"], [.str "b"]] :=
    .cons (.direct rfl (by decide)) (.cons (.direct rfl (by decide)) .nil)
  have hnone (value : Json) : ¬ IsCommon [[.str "a"], [.str "b"]] value := by
    intro hvalue
    have ha : value.compact = (Json.str "a").compact := by simpa using hvalue [.str "a"] (by simp)
    have hb : value.compact = (Json.str "b").compact := by simpa using hvalue [.str "b"] (by simp)
    exact absurd (ha.symm.trans hb) (by decide +kernel)
  obtain ⟨g, hread, haccepts⟩ :=
    accepts_commonLanguage hcompile (by decide) rfl (List.cons_ne_nil _ _) hlists
  obtain ⟨v, hv, hiff⟩ := haccepts .ascending "\x7b\x7d"
  refine ⟨t, g, v, hcompile, hread, hnone, hv, hiff.2 (.inr ⟨hnone, ?_⟩)⟩
  exact Language.append_mem_mul (a := ['\x7b']) (Schema.mem_mark "\x7b") (Schema.mem_mark "\x7d")

end Compiler

end SchemaGrammar
