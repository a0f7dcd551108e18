import SchemaGrammar.Proofs.Schema.Bounds
import SchemaGrammar.Proofs.Schema.Entries
import SchemaGrammar.Proofs.Schema.Invariant

set_option autoImplicit false

/-! # The builders are exact

Each builder registers a rule whose language is that of its schema, given that compiling the
schemas inside does so. Objects have a module of their own. -/

namespace SchemaGrammar

open Grammar (separated repeated listed)
open RuleTable (HasPlainDigits Requestable escapeName keepsInName)

namespace Schema

/-! ## Texts between marks -/

/-- An expression in brackets with blanks behind it. -/
theorem group_space_eq (e : String) :
    "(" ++ e ++ ") space" = "(" ++ e ++ ")" ++ " " ++ "space" := by
  rw [← String.toList_inj]
  simp

theorem quotes_eq (chars : String) : "\"\\\"\" " ++ chars ++ " \"\\\"\" space" =
    Grammar.literalText "\"" ++ " " ++ chars ++ " " ++ (Grammar.literalText "\"" ++ " " ++ "space") := by
  rw [← String.toList_inj]
  simp [Grammar.literalText, Grammar.literalChar]

theorem quotes_group_eq (e : String) : "\"\\\"\" (" ++ e ++ ") \"\\\"\" space" =
    Grammar.literalText "\"" ++ " " ++ ("(" ++ e ++ ")") ++ " " ++
      (Grammar.literalText "\"" ++ " " ++ "space") := by
  rw [← quotes_eq, ← String.toList_inj]
  simp

theorem brackets_eq (items : String) : "\"[\" space " ++ items ++ " \"]\" space" =
    Grammar.literalText "[" ++ " " ++ "space" ++ " " ++ items ++ " " ++
      (Grammar.literalText "]" ++ " " ++ "space") := by
  rw [← String.toList_inj]
  simp [Grammar.literalText, Grammar.literalChar]

theorem emptyList_eq : "\"[\" space \"]\" space" = Grammar.literalText "[" ++ " " ++ "space" ++ " " ++
    (Grammar.literalText "]" ++ " " ++ "space") := by
  rw [← String.toList_inj]
  simp [Grammar.literalText, Grammar.literalChar]

/-! ## Constants, strings and integers -/

section Closed

variable {options : Options} {document : Json} {plain : Prop} {busy : String → Prop}
variable {s s' : Session} {fields : Json.Fields} {hint name : String}

theorem valuesOf_of_elements {v : Json} {values : List Json} (h : elements v = .ok values) :
    valuesOf v = values := by
  rw [valuesOf, h]

theorem writes_group_space {t : RuleTable} {e : String} {L : Language Char} (h : t.Complete)
    (hw : t.Writes e L) : t.Writes ("(" ++ e ++ ") space") (L * blanks) := by
  rw [group_space_eq]
  exact (hw.group.row.beside h.denotes_space.item.row).writes

/-- A choice of texts. -/
theorem writes_choiceOf {t : RuleTable} {texts : List String} (h : t.Complete) (hne : texts ≠ []) :
    t.Writes (choiceOf (texts.map Grammar.literalText)) (texts.map mark).sum := by
  have hliterals : List.Forall₂ t.Writes (texts.map Grammar.literalText)
      (texts.map fun text => ({text.toList} : Language Char)) := by
    rw [List.forall₂_map_left_iff, List.forall₂_map_right_iff, List.forall₂_same]
    exact fun text _ => (RuleTable.writesItem_literal t text).writes
  have hchoices := RuleTable.writes_choices (by simpa using hne) hliterals
  have hsum : (texts.map mark).sum =
      (texts.map fun text => ({text.toList} : Language Char)).sum * blanks :=
    List.sum_map_mul_right texts _ blanks
  rw [hsum]
  exact writes_group_space h hchoices

/-- Counts that are naturals are those of the expressions for counted items. -/
theorem counts?_eq_some {minKey maxKey : String} {low : Nat} {high : Option Nat}
    (h : counts? fields minKey maxKey = some (low, high)) :
    orElse (Json.Fields.get? fields minKey) (.num (.whole 0)) = Grammar.lowCount low ∧
      keyword fields maxKey = Grammar.highCount high := by
  have hnatural {v : Json} {n : Nat} (h : natural? v = some n) : v = Grammar.lowCount n := by
    unfold natural? at h
    split at h
    · obtain rfl := Option.some.inj h
      rfl
    · exact absurd h (by simp)
  unfold counts? at h
  split at h
  · rename_i hlow hnull
    obtain ⟨rfl, rfl⟩ := Prod.mk.inj (Option.some.inj h)
    exact ⟨hnatural hlow, hnull⟩
  · rename_i hlow hhigh
    obtain ⟨most, hmost, heq⟩ := Option.map_eq_some_iff.1 h
    obtain ⟨rfl, rfl⟩ := Prod.mk.inj heq
    exact ⟨hnatural hlow, hnatural hmost⟩
  · exact absurd h (by simp)

theorem counted_eq_ok {x : Site} {minKey maxKey e : String}
    {build : Json → Json → Except Failure String}
    (h : counted x minKey maxKey build s = .ok e s') :
    build (orElse (x.keyword? minKey) (.num (.whole 0))) (x.keyword maxKey) = .ok e ∧ s = s' := by
  unfold counted at h
  cases hbuild : build (orElse (x.keyword? minKey) (.num (.whole 0))) (x.keyword maxKey) with
  | ok e' =>
    rw [hbuild] at h
    exact Work.ofExcept_eq_ok.1 h
  | error failure =>
    rw [hbuild] at h
    cases failure <;> exact absurd h Work.throw_ne_ok

theorem isUuidFormat_of_shape (hshape : shape fields = .uuid) :
    isUuidFormat (keyword fields "format").shown = true := by
  have hformat : formatIs fields isUuidFormat = true := Shape.Needs.of_eq hshape
  unfold formatIs at hformat
  split at hformat
  · rename_i format hget
    rw [keyword, hget]
    exact hformat
  · exact absurd hformat (by simp)

theorem isPrimitive_of_shape (hshape : shape fields = .primitive) :
    Builtin.typeNames.contains (keyword fields "type").shown = true := by
  have htype : isPrimitive fields = true := Shape.Needs.of_eq hshape
  unfold isPrimitive at htype
  split at htype
  · rename_i type hget
    rw [keyword, hget]
    exact htype
  · exact absurd htype (by simp)

/-- The formats of unique identifiers are no names of other built-in rules. -/
theorem asked_of_isUuidFormat {format : String} (h : isUuidFormat format = true) :
    escapeName format ≠ "root" ∧ (format = "uuid" ∨ Requestable plain format) := by
  have hall : ∀ format ∈ ["uuid", "uuid1", "uuid2", "uuid3", "uuid4", "uuid5"],
      escapeName format ≠ "root" ∧ (format = "uuid" ∨ format ≠ "" ∧
        Builtin.find? (escapeName format) = none ∧ HasPlainDigits format) := by decide
  obtain ⟨hroot, hformat⟩ := hall format (List.contains_iff_mem.1 h)
  exact ⟨hroot, hformat.imp_right fun ⟨hne, hfree, hdigits⟩ => ⟨hne, hfree, fun _ => hdigits⟩⟩

theorem asked_of_isPrimitive {type : String} (h : Builtin.typeNames.contains type = true) :
    escapeName type ≠ "root" := by
  have hall : ∀ type ∈ Builtin.typeNames, escapeName type ≠ "root" := by decide
  exact hall type (List.contains_iff_mem.1 h)

variable (hs : SoundSession options document plain busy s) (hhint : plain → HasPlainDigits hint)

include hs hhint

theorem visitConst_compiled (hshape : shape fields = .const)
    (hrun : visitConst ⟨fields, hint, ruleNameFor hint⟩ s = .ok name s') :
    Compiled options document plain busy (.obj fields) hint s s' name := by
  have hlanguage : language options document (.obj fields) = valueText (keyword fields "const") := by
    rw [language_eq, meaningStep, hshape]
  have hbody : s.table.Writes (constant (keyword fields "const") ++ " space")
      (valueText (keyword fields "const")) := by
    have hrow := (writesRow_mark hs.table.complete (keyword fields "const").compact).writes
    rwa [String.append_assoc] at hrow
  obtain ⟨_, s₁, hcheck, hadd⟩ := Work.bind_eq_ok.1 hrun
  obtain ⟨-, rfl⟩ := Work.ofExcept_eq_ok.1 hcheck
  exact (Proceeds.refl hs).addRule (by simp [hshape]) hhint (hlanguage ▸ hbody)
    (by simp [inside, hshape]) hadd

theorem visitEnum_compiled (hshape : shape fields = .enum) (hplain : IsPlain (.obj fields))
    (hrun : visitEnum ⟨fields, hint, ruleNameFor hint⟩ s = .ok name s') :
    Compiled options document plain busy (.obj fields) hint s s' name := by
  obtain ⟨values, s₁, helements, hmore⟩ := Work.bind_eq_ok.1 hrun
  obtain ⟨hok, rfl⟩ := Work.ofExcept_eq_ok.1 helements
  obtain ⟨_, s₂, hcheck, hadd⟩ := Work.bind_eq_ok.1 hmore
  obtain ⟨-, rfl⟩ := Work.ofExcept_eq_ok.1 hcheck
  have hvalues : valuesOf (keyword fields "enum") = values := valuesOf_of_elements hok
  have hlanguage : language options document (.obj fields) =
      ((values.map Json.compact).map mark).sum := by
    rw [language_eq, meaningStep, hshape, hvalues, List.map_map]
    rfl
  have hne : values ≠ [] := by
    rw [IsPlain, hshape] at hplain
    rwa [← hvalues]
  have hbody : s.table.Writes (choiceOf (values.map constant))
      ((values.map Json.compact).map mark).sum := by
    have hchoice : s.table.Writes (choiceOf ((values.map Json.compact).map Grammar.literalText)) _ :=
      writes_choiceOf hs.table.complete (by simpa using hne)
    rwa [List.map_map] at hchoice
  exact (Proceeds.refl hs).addRule (by simp [hshape]) hhint (hlanguage ▸ hbody)
    (by simp [inside, hshape]) hadd

omit hhint in
/-- A built-in rule under its own name, as builders use it. -/
theorem addNamed_proceeds {own slot : String} (hrun : Session.addNamed own own s = .ok slot s') :
    Proceeds options document plain busy s s' ∧ s'.table.Denotes slot (builtin own) := by
  obtain ⟨rule, hrule, rfl, hgrows, hdenotes⟩ := Session.addNamed_grows hs.table hrun
  refine ⟨(Proceeds.refl hs).grows hgrows, ?_⟩
  rwa [builtin, hrule]

theorem visitFormatString_compiled (hshape : shape fields = .formatString)
    (hrun : visitFormatString ⟨fields, hint, ruleNameFor hint⟩ s = .ok name s') :
    Compiled options document plain busy (.obj fields) hint s s' name := by
  obtain ⟨rule, s₁, hrule, hadd⟩ := Work.bind_eq_ok.1 hrun
  obtain ⟨hproceeds, hdenotes⟩ := addNamed_proceeds hs hrule
  have hlanguage : language options document (.obj fields) =
      builtin (formatRuleName (keyword fields "format").shown) := by
    rw [language_eq, meaningStep, hshape]
  exact hproceeds.addRule (by simp [hshape]) hhint (hlanguage ▸ hdenotes.item.writes)
    (by simp [inside, hshape]) hadd

theorem visitGenericObject_compiled (hshape : shape fields = .genericObject)
    (hrun : visitGenericObject ⟨fields, hint, ruleNameFor hint⟩ s = .ok name s') :
    Compiled options document plain busy (.obj fields) hint s s' name := by
  obtain ⟨rule, s₁, hrule, hadd⟩ := Work.bind_eq_ok.1 hrun
  obtain ⟨hproceeds, hdenotes⟩ := addNamed_proceeds hs hrule
  have hlanguage : language options document (.obj fields) = builtin "object" := by
    rw [language_eq, meaningStep, hshape]
  exact hproceeds.addRule (by simp [hshape]) hhint (hlanguage ▸ hdenotes.item.writes)
    (by simp [inside, hshape]) hadd

theorem visitBoundedString_compiled (hshape : shape fields = .boundedString)
    (hplain : IsPlain (.obj fields))
    (hrun : visitBoundedString ⟨fields, hint, ruleNameFor hint⟩ s = .ok name s') :
    Compiled options document plain busy (.obj fields) hint s s' name := by
  obtain ⟨char, s₁, hchar, hmore⟩ := Work.bind_eq_ok.1 hrun
  obtain ⟨chars, s₂, hchars, hadd⟩ := Work.bind_eq_ok.1 hmore
  obtain ⟨hbuild, rfl⟩ := counted_eq_ok hchars
  obtain ⟨hproceeds, hdenotes⟩ := addNamed_proceeds hs hchar
  rw [IsPlain, hshape] at hplain
  obtain ⟨low, high, hcounts, -, -⟩ := hplain
  obtain ⟨hleast, hmost⟩ := counts?_eq_some hcounts
  have hlanguage : language options document (.obj fields) =
      {['"']} * repeated low high (builtin "char") * mark "\"" := by
    rw [language_eq, meaningStep, hshape]
    dsimp only
    rw [stringMeaning, hcounts]
  have hrow : s₁.table.WritesRow chars (repeated low high (builtin "char")) := by
    refine Grammar.writesRow_repetition hdenotes.item ?_
    rw [← hleast, ← hmost]
    exact hbuild
  have hcomplete := hproceeds.session.table.complete
  have hbody := (((RuleTable.writesItem_literal s₁.table "\"").row.beside hrow).beside
    (writesRow_mark hcomplete "\"")).writes
  have hwrites : s₁.table.Writes ("\"\\\"\" " ++ chars ++ " \"\\\"\" space")
      (language options document (.obj fields)) := by
    rw [quotes_eq, hlanguage]
    exact hbody
  exact hproceeds.addRule (by simp [hshape]) hhint hwrites (by simp [inside, hshape]) hadd

/-- The ceiling of digits is a whole number. -/
def HasCeiling (options : Options) : Prop :=
  ∃ k : Int, options.maxDigits = .whole k

theorem visitIntRange_compiled (hceiling : HasCeiling options) (hshape : shape fields = .intRange)
    (hrun : visitIntRange options ⟨fields, hint, ruleNameFor hint⟩ s = .ok name s') :
    Compiled options document plain busy (.obj fields) hint s s' name := by
  obtain ⟨b, s₁, hbounds, hmore⟩ := Work.bind_eq_ok.1 hrun
  obtain ⟨hok, rfl⟩ := Work.ofExcept_eq_ok.1 hbounds
  have hboundsOf : boundsOf fields = .ok b := hok
  obtain ⟨k, hk⟩ := hceiling
  cases hexpression : IntRange.expression b.low b.high options.maxDigits with
  | error fault =>
    rw [hexpression] at hmore
    exact absurd hmore Work.throw_ne_ok
  | ok e =>
    rw [hexpression] at hmore
    have hlanguage : language options document (.obj fields) =
        Builtin.languageOf ("(" ++ e ++ ") space") := by
      rw [language_eq, meaningStep, hshape]
      dsimp only
      rw [integerMeaning, hboundsOf]
      dsimp only
      rw [hexpression]
    have hcomplete := hs.table.complete
    have hbody : s.table.Writes ("(" ++ e ++ ") space")
        (Builtin.languageOf ("(" ++ e ++ ") space")) := by
      refine hcomplete.writes ?_
      have he := IntRange.writes_expression s.table.builtins (hk ▸ hexpression)
      have hspace := hcomplete.holdsCatalog.writesItem_builtin
        ⟨by decide, RuleTable.has_of_find? hcomplete.space⟩
      rw [group_space_eq]
      exact ⟨_, (he.group.row.beside hspace.row).writes⟩
    exact (Proceeds.refl hs).addRule (by simp [hshape]) hhint (hlanguage ▸ hbody)
      (by simp [inside, hshape]) hmore

/-! ### Built-in rules as rules of schemas -/

omit hhint in
/-- A schema that is a built-in rule: the root where it is the whole schema. -/
theorem builtinName_compiled {own asked : String} (hroot : escapeName asked ≠ "root")
    (hasked : asked = own ∨ Requestable plain asked)
    (hlanguage : language options document (.obj fields) = builtin own)
    (hshape : shape fields ≠ .object) (hinside : inside document (.obj fields) = [])
    (hrun : Session.addNamed (builtinName ⟨fields, hint, ruleNameFor hint⟩ asked) own s =
      .ok name s') :
    Compiled options document plain busy (.obj fields) hint s s' name := by
  refine compiled_addNamed hs ?_ hlanguage hshape hinside hrun
  by_cases hempty : hint = ""
  · subst hempty
    exact .inl ⟨rfl, by rw [builtinName, ruleNameFor_empty]; rfl⟩
  · have hne : ruleNameFor hint ≠ "root" := fun h => hempty (ruleNameFor_eq_root.1 h)
    have hname : builtinName ⟨fields, hint, ruleNameFor hint⟩ asked = asked := by
      simp [builtinName, hne]
    rw [hname]
    exact .inr ⟨hempty, hroot, hasked⟩

omit hhint in
theorem visitUuid_compiled (hshape : shape fields = .uuid)
    (hrun : visitUuid ⟨fields, hint, ruleNameFor hint⟩ s = .ok name s') :
    Compiled options document plain busy (.obj fields) hint s s' name := by
  obtain ⟨hroot, hasked⟩ := asked_of_isUuidFormat (isUuidFormat_of_shape hshape)
  have hlanguage : language options document (.obj fields) = builtin "uuid" := by
    rw [language_eq, meaningStep, hshape]
  exact builtinName_compiled hs hroot hasked hlanguage (by simp [hshape]) (by simp [inside, hshape])
    hrun

omit hhint in
theorem visitPrimitive_compiled (hshape : shape fields = .primitive)
    (hrun : visitPrimitive ⟨fields, hint, ruleNameFor hint⟩ s = .ok name s') :
    Compiled options document plain busy (.obj fields) hint s s' name := by
  have htype := isPrimitive_of_shape hshape
  have hlanguage : language options document (.obj fields) =
      builtin (keyword fields "type").shown := by
    rw [language_eq, meaningStep, hshape]
  exact builtinName_compiled hs (asked_of_isPrimitive htype) (.inl rfl) hlanguage (by simp [hshape])
    (by simp [inside, hshape]) hrun

end Closed

/-! ## Alternatives and lists -/

section Nested

/-- Rows between brackets. -/
theorem writes_bracketed {t : RuleTable} {items : String} {L : Language Char} (h : t.Complete)
    (hitems : t.WritesRow items L) :
    t.Writes ("\"[\" space " ++ items ++ " \"]\" space") (bracketed L) := by
  rw [brackets_eq]
  exact (((writesRow_mark h "[").beside hitems).beside (writesRow_mark h "]")).writes

/-- The list without items. -/
theorem writes_emptyList {t : RuleTable} (h : t.Complete) :
    t.Writes "\"[\" space \"]\" space" (bracketed 1) := by
  rw [emptyList_eq, bracketed, mul_one]
  exact ((writesRow_mark h "[").beside (writesRow_mark h "]")).writes

theorem getLast_name {t : RuleTable} {name : String} (h : t.Complete) (hname : t.has name = true) :
    ∀ c ∈ name.toList.getLast?, Text.isBlank c = false :=
  fun c hc => RuleTable.isBlank_of_keepsInName
    ((h.storable name hname).2 c (List.mem_of_getLast? hc))

variable {options : Options} {document : Json} {plain : Prop} {busy : String → Prop}
variable {visit : Visit} (hvisit : IsExact options document plain visit)
variable {s s' : Session} {fields : Json.Fields} {hint name : String}

include hvisit

/-- Alternatives are numbered below the hint. -/
theorem alternatives_compiled {schemas : List Json} {body : String}
    (hs : SoundSession options document plain busy s) (hhint : plain → HasPlainDigits hint)
    (hne : schemas ≠ [])
    (h : ∀ S ∈ schemas, Reaches document document S ∧ IsFree document busy S)
    (hrun : alternatives visit hint schemas s = .ok body s') :
    Proceeds options document plain busy s s' ∧
      s'.table.Writes body ((schemas.map (language options document)).sum) ∧
      ∀ S ∈ schemas, Covers document s'.table S := by
  obtain ⟨names, s₁, hmap, hlast⟩ := Work.bind_eq_ok.1 hrun
  obtain ⟨rfl, rfl⟩ := Work.pure_eq_ok.1 hlast
  have hask (i : Nat) : (if hint.isEmpty then "alternative" else hint) ++ "-" ++ natText i ≠ "" ∧
      (plain → HasPlainDigits ((if hint.isEmpty then "alternative" else hint) ++ "-" ++ natText i)) := by
    refine ⟨by simp, fun hp => ?_⟩
    have hfront : HasPlainDigits (if hint.isEmpty then "alternative" else hint) := by
      split_ifs
      · decide
      · exact hhint hp
    exact (hfront.append (by decide)).append (hasPlainDigits_natText i)
  obtain ⟨hproceeds, hdenotes, hcovers⟩ := zipIdx_compiled hvisit 0 hs hask h hmap
  refine ⟨hproceeds, RuleTable.writes_choices ?_ (hdenotes.imp fun _ _ hd => hd.item.writes),
    hcovers⟩
  rintro rfl
  exact hne (by simpa using hdenotes.length_eq.symm)

variable (hs : SoundSession options document plain busy s) (hhint : plain → HasPlainDigits hint)
variable (hreach : Reaches document document (.obj fields)) (hfree : IsFree document busy (.obj fields))

include hs hhint hreach hfree

theorem visitUnion_compiled (hshape : shape fields = .union) (hplain : IsPlain (.obj fields))
    (hrun : visitUnion visit ⟨fields, hint, ruleNameFor hint⟩ s = .ok name s') :
    Compiled options document plain busy (.obj fields) hint s s' name := by
  obtain ⟨schemas, s₁, helements, hmore⟩ := Work.bind_eq_ok.1 hrun
  obtain ⟨hvalues, rfl⟩ := Work.ofExcept_eq_ok.1 helements
  obtain ⟨body, s₂, hbody, hadd⟩ := Work.bind_eq_ok.1 hmore
  have hchoices : choices fields = schemas := valuesOf_of_elements hvalues
  have hinside : inside document (.obj fields) = schemas := by rw [inside, hshape, ← hchoices]
  have hlanguage : language options document (.obj fields) =
      (schemas.map (language options document)).sum := by
    rw [language_eq, meaningStep, hshape, ← hchoices]
  have hne : schemas ≠ [] := by
    rw [IsPlain, hshape] at hplain
    rwa [← hchoices]
  obtain ⟨hproceeds, hwrites, hcovers⟩ := alternatives_compiled hvisit hs hhint hne
    (fun S hS => ⟨hreach.tail (hinside ▸ hS), hfree.inside (hinside ▸ hS)⟩) hbody
  exact hproceeds.addRule (by simp [hshape]) hhint (hlanguage ▸ hwrites) (hinside ▸ hcovers) hadd

theorem visitTypeUnion_compiled (hshape : shape fields = .typeUnion)
    (hplain : IsPlain (.obj fields))
    (hrun : visitTypeUnion visit ⟨fields, hint, ruleNameFor hint⟩ s = .ok name s') :
    Compiled options document plain busy (.obj fields) hint s s' name := by
  obtain ⟨types, s₁, helements, hmore⟩ := Work.bind_eq_ok.1 hrun
  obtain ⟨hvalues, rfl⟩ := Work.ofExcept_eq_ok.1 helements
  obtain ⟨body, s₂, hbody, hadd⟩ := Work.bind_eq_ok.1 hmore
  have hchoices : typeChoices fields =
      types.map fun t => Json.obj (Json.Fields.set fields "type" t) := by
    have htypes : valuesOf (keyword fields "type") = types := valuesOf_of_elements hvalues
    rw [typeChoices, htypes]
  have hinside : inside document (.obj fields) = typeChoices fields := by rw [inside, hshape]
  have hlanguage : language options document (.obj fields) =
      ((typeChoices fields).map (language options document)).sum := by
    rw [language_eq, meaningStep, hshape]
  rw [IsPlain, hshape] at hplain
  obtain ⟨hproceeds, hwrites, hcovers⟩ := alternatives_compiled hvisit hs hhint hplain
    (fun S hS => ⟨hreach.tail (hinside ▸ hS), hfree.inside (hinside ▸ hS)⟩) (hchoices ▸ hbody)
  exact hproceeds.addRule (by simp [hshape]) hhint (hlanguage ▸ hwrites) (hinside ▸ hcovers) hadd

theorem visitTuple_compiled (hshape : shape fields = .tuple)
    (hrun : visitTuple visit ⟨fields, hint, ruleNameFor hint⟩ s = .ok name s') :
    Compiled options document plain busy (.obj fields) hint s s' name := by
  obtain ⟨rules, s₁, hmap, hadd⟩ := Work.bind_eq_ok.1 hrun
  have hinside : inside document (.obj fields) = tupleItems fields := by rw [inside, hshape]
  have hlanguage : language options document (.obj fields) =
      bracketed (separated (mark ",") ((tupleItems fields).map (language options document))) := by
    rw [language_eq, meaningStep, hshape]
  have hask (i : Nat) : subName hint ("tuple-" ++ natText i) ≠ "" ∧
      (plain → HasPlainDigits (subName hint ("tuple-" ++ natText i))) := by
    refine ⟨subName_ne_empty (.inr (by simp)), fun hp => hasPlainDigits_subName (hhint hp) ?_⟩
    exact RuleTable.HasPlainDigits.append (by decide) (hasPlainDigits_natText i)
  obtain ⟨hproceeds, hdenotes, hcovers⟩ := zipIdx_compiled hvisit 0 hs hask
    (fun S hS => ⟨hreach.tail (hinside ▸ hS), hfree.inside (hinside ▸ hS)⟩) hmap
  have hcomplete := hproceeds.session.table.complete
  have hrow := RuleTable.writesRow_separated (writesRow_mark hcomplete ",")
    (hdenotes.imp fun _ _ hd => hd.item.row)
  have hbody := writes_bracketed hcomplete hrow
  exact hproceeds.addRule (by simp [hshape]) hhint (hlanguage ▸ hbody) (hinside ▸ hcovers) hadd

omit hvisit hs hreach hfree in
/-- The rule of a list, when the rule of its items is there. -/
theorem list_compiled {s₁ s₂ : Session} {rule items : String} {L : Language Char}
    (hproceeds : Proceeds options document plain busy s s₁) (hrule : s₁.table.Denotes rule L)
    (hshape : shape fields = .array) (hplain : IsPlain (.obj fields))
    (hlanguage : language options document (.obj fields) = countedList fields L)
    (hcovers : ∀ S' ∈ inside document (.obj fields), Covers document s₁.table S')
    (hitems : counted ⟨fields, hint, ruleNameFor hint⟩ "minItems" "maxItems"
      (Grammar.separatedRepetition rule "\",\" space") s₁ = .ok items s₂)
    (hadd : Session.addRule (ruleNameFor hint) ("\"[\" space " ++ items ++ " \"]\" space") s₂ =
      .ok name s') : Compiled options document plain busy (.obj fields) hint s s' name := by
  obtain ⟨hbuild, rfl⟩ := counted_eq_ok hitems
  rw [IsPlain, hshape] at hplain
  obtain ⟨low, high, hcounts, -, -⟩ := hplain
  obtain ⟨hleast, hmost⟩ := counts?_eq_some hcounts
  rw [countedList, hcounts] at hlanguage
  have hcomplete := hproceeds.session.table.complete
  have hrow : s₁.table.WritesRow items (listed (mark ",") low high L) := by
    refine Grammar.writesRow_separatedRepetition hrule.item (getLast_name hcomplete hrule.known)
      (writesRow_mark hcomplete ",") ?_
    rw [← hleast, ← hmost]
    exact hbuild
  have hbody := writes_bracketed hcomplete hrow
  exact hproceeds.addRule (by simp [hshape]) hhint (hlanguage ▸ hbody) hcovers hadd

theorem visitArray_compiled (hshape : shape fields = .array) (hplain : IsPlain (.obj fields))
    (hrun : visitArray visit ⟨fields, hint, ruleNameFor hint⟩ s = .ok name s') :
    Compiled options document plain busy (.obj fields) hint s s' name := by
  have hmeaning : language options document (.obj fields) =
      arrayMeaning (language options document) fields := by
    rw [language_eq, meaningStep, hshape]
  have hinside : inside document (.obj fields) = itemSchemas fields := by rw [inside, hshape]
  rw [arrayMeaning] at hmeaning
  rw [itemSchemas] at hinside
  unfold visitArray at hrun
  have hitems : Site.keyword ⟨fields, hint, ruleNameFor hint⟩ "items" = keyword fields "items" := rfl
  rw [hitems] at hrun
  -- the items have a rule already
  have hlist {s₁ : Session} {rule : String} {L : Language Char}
      (hproceeds : Proceeds options document plain busy s s₁) (hdenotes : s₁.table.Denotes rule L)
      (hlanguage : language options document (.obj fields) = countedList fields L)
      (hcovers : ∀ S' ∈ inside document (.obj fields), Covers document s₁.table S')
      (hwork : (do
        let items ← counted ⟨fields, hint, ruleNameFor hint⟩ "minItems" "maxItems"
          (Grammar.separatedRepetition rule "\",\" space")
        Session.addRule (ruleNameFor hint) ("\"[\" space " ++ items ++ " \"]\" space")) s₁ =
          .ok name s') : Compiled options document plain busy (.obj fields) hint s s' name := by
    obtain ⟨items, s₂, hcounted, hadd⟩ := Work.bind_eq_ok.1 hwork
    exact list_compiled hhint hproceeds hdenotes hshape hplain hlanguage hcovers hcounted hadd
  have hask : plain → HasPlainDigits (subName hint "item") := fun hp =>
    hasPlainDigits_subName (hhint hp) (by decide)
  have hne : subName hint "item" ≠ "" := subName_ne_empty (.inr (by decide))
  cases hkind : keyword fields "items" with
  | bool b =>
    rw [hkind] at hrun hmeaning hinside
    cases b with
    | false =>
      exact (Proceeds.refl hs).addRule (by simp [hshape]) hhint
        (hmeaning ▸ writes_emptyList hs.table.complete) (by simp [hinside]) hrun
    | true =>
      obtain ⟨rule, s₁, hrule, hwork⟩ := Work.bind_eq_ok.1 hrun
      obtain ⟨hproceeds, hdenotes⟩ := addNamed_proceeds hs hrule
      exact hlist hproceeds hdenotes hmeaning (by simp [hinside]) hwork
  | obj inner =>
    rw [hkind] at hrun hmeaning hinside
    cases inner with
    | nil =>
      obtain ⟨rule, s₁, hrule, hwork⟩ := Work.bind_eq_ok.1 hrun
      obtain ⟨hproceeds, hdenotes⟩ := addNamed_proceeds hs hrule
      exact hlist hproceeds hdenotes hmeaning (by simp [hinside]) hwork
    | cons field rest =>
      obtain ⟨rule, s₁, hrule, hwork⟩ := Work.bind_eq_ok.1 hrun
      have hcompiled := hvisit busy _ _ _ _ _ hrule hs (hreach.tail (by simp [hinside])) hask
        (hfree.inside (by simp [hinside]))
      exact hlist (hcompiled.proceeds hne) hcompiled.denotes hmeaning
        (by simpa [hinside] using hcompiled.covers) hwork
  | _ =>
    rw [hkind] at hrun hmeaning hinside
    obtain ⟨rule, s₁, hrule, hwork⟩ := Work.bind_eq_ok.1 hrun
    have hcompiled := hvisit busy _ _ _ _ _ hrule hs (hreach.tail (by simp [hinside])) hask
      (hfree.inside (by simp [hinside]))
    exact hlist (hcompiled.proceeds hne) hcompiled.denotes hmeaning
      (by simpa [hinside] using hcompiled.covers) hwork

end Nested

end Schema

end SchemaGrammar
