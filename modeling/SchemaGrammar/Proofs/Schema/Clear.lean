import SchemaGrammar.Proofs.Json.Compact
import SchemaGrammar.Proofs.Patterns
import SchemaGrammar.Proofs.Schema.Builders
import SchemaGrammar.Proofs.Schema.Legible

set_option autoImplicit false

/-! # The builders keep sessions legible

A schema is clear if its keys have no foreign digits, its counts are naturals and its pattern is one
that grammars have (`IsClear`). Given that compiling the schemas inside keeps a session legible, so
does each builder, and it gives a rule (`Session.IsRule`). Most bodies start with a mark, so that no
blanks come of them; those that only name other rules are solid because these are. -/

namespace SchemaGrammar

open Grammar (IsReadable IsLegibleRow IsSolidRow IsSolid ReadsItem ReadsRow Reads)
open Json (Fields)
open RuleTable (HasPlainDigits IsLegibleBody IsSolidBody Requestable escapeName)
open Session (Legible Builds Makes MakesRule makes_throw makes_orFail_bind makes_finish makes_addNamed)

namespace Schema

/-! ## Clear schemas -/

/-- The count is missing or a natural. -/
def IsNaturalCount (v : Json) : Prop :=
  v = .null ∨ ∃ n : Nat, v = Grammar.lowCount n

/-- What is written of the schema itself can be read. -/
structure IsClear (document : Json) (fields : Fields) : Prop where
  keys : ∀ key ∈ declaredKeys document (.obj fields), HasPlainDigits key
  counts : ∀ key ∈ ["minLength", "maxLength", "minItems", "maxItems"],
    IsNaturalCount (keyword fields key)
  pattern : shape fields = .pattern → ∃ r : Pattern.Regex .choice,
    keyword fields "pattern" = .str r.anchored ∧ r.IsTranslatable

/-- Where the schema chooses, it has something to choose from. -/
def HasChoices (fields : Fields) : Prop :=
  match shape fields with
  | .union => choices fields ≠ []
  | .typeUnion => typeChoices fields ≠ []
  | .enum => valuesOf (keyword fields "enum") ≠ []
  | _ => True

theorem counts_of_natural {fields : Fields} {minKey maxKey : String}
    (hlow : IsNaturalCount (keyword fields minKey)) (hhigh : IsNaturalCount (keyword fields maxKey)) :
    ∃ low high, orElse (Fields.get? fields minKey) (.num (.whole 0)) = Grammar.lowCount low ∧
      keyword fields maxKey = Grammar.highCount high := by
  have hleast : ∃ low, orElse (Fields.get? fields minKey) (.num (.whole 0)) = Grammar.lowCount low := by
    unfold keyword at hlow
    cases hget : Fields.get? fields minKey with
    | none => exact ⟨0, rfl⟩
    | some v =>
      rw [hget] at hlow
      unfold orElse
      dsimp only
      split_ifs with hfalsy
      · exact ⟨0, rfl⟩
      · rcases hlow with hnull | hnatural
        · obtain rfl : v = .null := hnull
          exact absurd rfl hfalsy
        · exact hnatural
  obtain ⟨low, hlow⟩ := hleast
  rcases hhigh with hnull | ⟨n, hn⟩
  · exact ⟨low, none, hlow, hnull⟩
  · exact ⟨low, some n, hlow, hn⟩

/-! ## Bodies -/

section Bodies

variable {V : String → Prop} {e : String} {literals : List String} {L : Language Char}

/-- A name that can be read; there is no grammar to ask for its language. -/
theorem readsItem_readable {name : String} (h : IsReadable name) :
    ReadsItem IsReadable (fun _ => False) name L :=
  Grammar.readsItem_name h fun _ hfalse => hfalse.elim

theorem readsItem_space : ReadsItem IsReadable (fun _ => False) "space" blanks :=
  readsItem_readable (by decide)

/-- Names one after the other. -/
theorem forall₂_readsRow {names : List String} (h : ∀ name ∈ names, IsReadable name) :
    List.Forall₂ (ReadsRow IsReadable fun _ => False) names (names.map fun _ => 1) := by
  rw [List.forall₂_map_right_iff, List.forall₂_same]
  exact fun name hname => (readsItem_readable (h name hname)).row

theorem isLegibleRow_empty : IsLegibleRow "" :=
  (Grammar.readsRow_empty (P := IsReadable) (Q := fun _ => False)).isLegibleRow

theorem isLegibleRow_mark (s : String) : IsLegibleRow (Grammar.literalText s ++ " " ++ "space") :=
  (readsRow_mark readsItem_space s).isLegibleRow

/-- A mark with blanks behind it. -/
theorem isSolidRow_mark {s : String} (h : ¬ Standard.AreBlank s.toList) :
    IsSolidRow V (Grammar.literalText s ++ " " ++ "space") :=
  (Grammar.isSolidItem_literal h).row.beside readsItem_space.row.isLegibleRow

theorem isSolid_constant (v : Json) : IsSolid V (constant v ++ " space") := by
  have hrow : IsSolidRow V (Grammar.literalText v.compact ++ " " ++ "space") :=
    isSolidRow_mark (Json.not_areBlank_compact v)
  rw [String.append_assoc] at hrow
  exact hrow.isSolid

theorem isSolid_group_space (h : Grammar.IsSolidItem V ("(" ++ e ++ ")")) :
    IsSolid V ("(" ++ e ++ ") space") := by
  rw [group_space_eq]
  exact (h.row.beside readsItem_space.row.isLegibleRow).isSolid

/-- Items between brackets. -/
theorem isSolid_bracketed (h : IsLegibleRow e) : IsSolid V ("\"[\" space " ++ e ++ " \"]\" space") := by
  rw [brackets_eq]
  exact (((isSolidRow_mark (by decide)).beside h).beside (isLegibleRow_mark "]")).isSolid

theorem isSolid_emptyList : IsSolid V "\"[\" space \"]\" space" := by
  rw [emptyList_eq]
  exact ((isSolidRow_mark (by decide)).beside (isLegibleRow_mark "]")).isSolid

/-- Characters between quotes. -/
theorem isSolid_quotes (h : IsLegibleRow e) : IsSolid V ("\"\\\"\" " ++ e ++ " \"\\\"\" space") := by
  have hquote : Grammar.IsSolidItem V (Grammar.literalText "\"") :=
    Grammar.isSolidItem_literal (by decide)
  rw [quotes_eq]
  exact ((hquote.row.beside h).beside (isLegibleRow_mark "\"")).isSolid

/-- Pairs and what may follow them between braces. -/
theorem isSolid_object {rules : List String} {rest : String}
    (hrules : ∀ rule ∈ rules, IsReadable rule) (hrest : IsLegibleRow rest)
    (hapart : ∀ text, Grammar.Apart text rest.toList) : IsSolid V
      ("\"\x7b\" space " ++ " \",\" space ".intercalate rules ++ rest ++ " \"\x7d\" space") := by
  have hinner :=
    readsRow_pairs readsItem_space (forall₂_readsRow hrules) (hrest.reads (L := 1)) hapart
  rw [braces_eq]
  exact (((isSolidRow_mark (by decide)).beside hinner.isLegibleRow).beside
    (isLegibleRow_mark "\x7d")).isSolid

/-- Names between bars, which may be none. -/
theorem isLegibleBody_names {names : List String} (h : ∀ name ∈ names, IsReadable name) :
    IsLegibleBody (" | ".intercalate names) := by
  by_cases hne : names = []
  · subst hne
    exact RuleTable.isLegibleBody_of_reads (isLegibleRow_empty.reads (L := 1)).reads
  · have hnames := (forall₂_readsRow h).imp fun _ _ hname => hname.reads
    exact RuleTable.isLegibleBody_of_reads (Grammar.reads_choices hne hnames)

/-- Literals between bars, which may be none. -/
theorem isLegibleBody_choiceOf (texts : List String) :
    IsLegibleBody (choiceOf (texts.map Grammar.literalText)) := by
  have hgroup {L : Language Char}
      (h : Reads IsReadable (fun _ => False) (" | ".intercalate (texts.map Grammar.literalText)) L) :
      IsLegibleBody (choiceOf (texts.map Grammar.literalText)) := by
    rw [choiceOf, group_space_eq]
    exact RuleTable.isLegibleBody_of_reads (h.group.row.beside readsItem_space.row).reads
  by_cases hne : texts = []
  · subst hne
    exact hgroup Grammar.readsRow_empty.reads
  · have hliterals : List.Forall₂ (Reads IsReadable fun _ => False) (texts.map Grammar.literalText)
        (texts.map fun text => ({text.toList} : Language Char)) := by
      rw [List.forall₂_map_left_iff, List.forall₂_map_right_iff, List.forall₂_same]
      exact fun text _ => (Grammar.readsItem_literal text).reads
    exact hgroup (Grammar.reads_choices (by simpa using hne) hliterals)

theorem isSolid_choiceOf {texts : List String} (hne : texts ≠ [])
    (h : ∀ text ∈ texts, ¬ Standard.AreBlank text.toList) :
    IsSolid V (choiceOf (texts.map Grammar.literalText)) := by
  refine isSolid_group_space (Grammar.IsSolid.group (Grammar.isSolid_choices (by simpa using hne) ?_))
  intro literal hliteral
  obtain ⟨text, htext, rfl⟩ := List.mem_map.1 hliteral
  exact (Grammar.isSolidItem_literal (h text htext)).row.isSolid

/-- The expression for a range of integers in a group. -/
theorem isSolidItem_range {low high : Option Int} {k : Int}
    (h : IntRange.expression low high (.whole k) = .ok e) : Grammar.IsSolidItem V ("(" ++ e ++ ")") := by
  have hgroup := (IntRange.writes_expression RuleTable.blank h).group.anywhere
    (P := IsReadable) (Q := fun _ => True)
  refine hgroup.isSolidItem fun text htext => ?_
  obtain ⟨n, -, rfl⟩ := htext
  exact Standard.not_areBlank_of_mem_number (Standard.integer_le_number (intText_mem_integer n))

/-- The expression for any string but the declared keys. -/
theorem isLegibleBody_exclusion (keys : List String) :
    IsLegibleBody (Exclusion.body "char" (Trie.ofTexts ((keys.map Json.str).map Exclusion.content))) := by
  have hrow := Exclusion.rowWithin_body
    (RuleTable.itemWithin_table (by decide : "char" ∈ Builtin.names))
    (RuleTable.itemWithin_table (by decide : "space" ∈ Builtin.names)) (Exclusion.grows_keys keys)
  obtain ⟨L, hwrites⟩ := hrow.within.isExpression
  exact RuleTable.isLegibleBody_of_reads (Reads.mono hwrites fun name hname =>
    Builtin.readable_names name (RuleTable.has_iff_mem.1 hname))

end Bodies

/-! ## Builders that compile nothing inside -/

/-- The rules of string formats are rules for values. -/
theorem mem_solidNames_of_formatString {fields : Fields} (hshape : shape fields = .formatString) :
    formatRuleName (keyword fields "format").shown ∈ Builtin.solidNames := by
  have hformat : formatIs fields isGrammarFormat = true := Shape.Needs.of_eq hshape
  unfold formatIs at hformat
  split at hformat
  · rename_i format hget
    rw [keyword, hget]
    have hname : formatRuleName format ∈ Builtin.formats.map Prod.fst :=
      Assoc.lookup_isSome_iff.1 hformat
    -- the other formats are parts of strings
    have hall : ∀ name ∈ Builtin.formats.map Prod.fst,
        name ∈ Builtin.solidNames ∨ ¬ "-string".toList <:+ name.toList := by decide
    refine (hall _ hname).resolve_right fun hne => hne ?_
    rw [formatRuleName, String.toList_append]
    exact List.suffix_append _ _
  · exact absurd hformat (by simp)

section Leaves

variable {document : Json} {firm : Prop} {options : Options} {s : Session} {fields : Fields}
variable {hint body : String}
variable (hs : s.Legible document firm) (hhint : HasPlainDigits hint)

include hs

/-- The rule of a schema with a solid body. -/
theorem makes_solid (hhint : HasPlainDigits hint) (hbody : IsSolid s.IsSolid body) :
    MakesRule document firm (Session.addRule (ruleNameFor hint) body) s := by
  have hsolid := RuleTable.isSolidBody_of_isSolid hbody
  exact makes_finish hs hhint hsolid.isLegibleBody fun _ => hsolid

/-- Reading counts changes nothing, and natural ones are written as they are. -/
theorem makes_counted {rule minKey maxKey : String} {build : Json → Json → Except Failure String}
    (hlow : IsNaturalCount (keyword fields minKey)) (hhigh : IsNaturalCount (keyword fields maxKey)) :
    Makes document firm (fun e s' => s' = s ∧ ∃ low high,
        build (Grammar.lowCount low) (Grammar.highCount high) = .ok e)
      (counted ⟨fields, hint, rule⟩ minKey maxKey build) s := by
  intro e s' hrun
  obtain ⟨hbuild, rfl⟩ := counted_eq_ok hrun
  obtain ⟨low, high, hleast, hmost⟩ := counts_of_natural hlow hhigh
  refine ⟨.refl hs, rfl, low, high, ?_⟩
  rw [← hleast, ← hmost]
  exact hbuild

/-- A built-in rule for values under its own name. -/
theorem makes_builtin {own : String} (hown : own ∈ Builtin.solidNames) :
    MakesRule document firm (Session.addNamed own own) s :=
  (makes_addNamed hs (.inl rfl) fun _ => .inr hown).mono fun _ _ _ h => h.2 hown

/-- A built-in rule that is the rule of a schema: the root where it is the whole schema. -/
theorem makes_builtinName {own asked : String} (hown : own ∈ Builtin.solidNames)
    (hasked : asked = own ∨ Requestable True asked) : MakesRule document firm
      (Session.addNamed (builtinName ⟨fields, hint, ruleNameFor hint⟩ asked) own) s := by
  refine (makes_addNamed hs ?_ fun _ => .inr hown).mono fun _ _ _ h => h.2 hown
  unfold builtinName
  split_ifs
  · exact .inr ⟨by decide, by decide, fun _ => by decide⟩
  · exact hasked

theorem makes_visitUuid (hshape : shape fields = .uuid) :
    MakesRule document firm (visitUuid ⟨fields, hint, ruleNameFor hint⟩) s :=
  makes_builtinName hs (by decide) (asked_of_isUuidFormat (isUuidFormat_of_shape hshape)).2

theorem makes_visitPrimitive (hshape : shape fields = .primitive) :
    MakesRule document firm (visitPrimitive ⟨fields, hint, ruleNameFor hint⟩) s := by
  have hall : ∀ type ∈ Builtin.typeNames, type ∈ Builtin.solidNames := by decide
  exact makes_builtinName hs (hall _ (List.contains_iff_mem.1 (isPrimitive_of_shape hshape))) (.inl rfl)

include hhint

/-- A rule that only refers to another one. -/
theorem makes_alias {rule : String} (hrule : s.IsUsable firm rule) :
    MakesRule document firm (Session.addRule (ruleNameFor hint) rule) s := by
  refine makes_finish hs hhint ?_ fun hfirm => ?_
  · exact RuleTable.isLegibleBody_of_reads (readsItem_readable (L := 1) hrule.readable).reads
  · have hitem := Grammar.isSolidItem_name hrule.readable (hrule.solid hfirm)
    exact RuleTable.isSolidBody_of_isSolid hitem.row.isSolid

theorem makes_visitGenericObject :
    MakesRule document firm (visitGenericObject ⟨fields, hint, ruleNameFor hint⟩) s :=
  (makes_builtin hs (by decide)).bind fun _ _ hbuilds hrule =>
    makes_alias hbuilds.legible hhint hrule.isUsable

theorem makes_visitFormatString (hshape : shape fields = .formatString) :
    MakesRule document firm (visitFormatString ⟨fields, hint, ruleNameFor hint⟩) s :=
  (makes_builtin hs (mem_solidNames_of_formatString hshape)).bind fun _ _ hbuilds hrule =>
    makes_alias hbuilds.legible hhint hrule.isUsable

theorem makes_visitConst : MakesRule document firm (visitConst ⟨fields, hint, ruleNameFor hint⟩) s :=
  makes_orFail_bind fun _ _ => makes_solid hs hhint (isSolid_constant _)

theorem makes_visitEnum (hshape : shape fields = .enum) (hchoices : firm → HasChoices fields) :
    MakesRule document firm (visitEnum ⟨fields, hint, ruleNameFor hint⟩) s := by
  refine makes_orFail_bind fun values hvalues => makes_orFail_bind fun _ _ => ?_
  have hvaluesOf : valuesOf (keyword fields "enum") = values := valuesOf_of_elements hvalues
  have hliterals : values.map constant = (values.map Json.compact).map Grammar.literalText :=
    (List.map_map ..).symm
  rw [hliterals]
  refine makes_finish hs hhint (isLegibleBody_choiceOf _) fun hfirm => ?_
  have hne : values ≠ [] := by
    have hsome := hchoices hfirm
    rwa [HasChoices, hshape, hvaluesOf] at hsome
  refine RuleTable.isSolidBody_of_isSolid (isSolid_choiceOf (by simpa using hne) fun text htext => ?_)
  obtain ⟨v, -, rfl⟩ := List.mem_map.1 htext
  exact Json.not_areBlank_compact v

theorem makes_visitBoundedString (hclear : IsClear document fields) :
    MakesRule document firm (visitBoundedString ⟨fields, hint, ruleNameFor hint⟩) s := by
  have hchar : escapeName "char" ≠ "root" := by decide
  refine (makes_addNamed hs (.inl rfl) fun _ => .inl hchar).bind fun char s₁ hbuilds hslot => ?_
  refine (makes_counted hbuilds.legible (hclear.counts "minLength" (by simp))
    (hclear.counts "maxLength" (by simp))).bind fun chars s₂ hbuilds' hchars => ?_
  obtain ⟨rfl, low, high, hcounts⟩ := hchars
  have hrow := (Grammar.composes_reads IsReadable fun _ => False).row_repetition false
    (readsItem_readable (L := 1) hslot.1) hcounts
  exact makes_solid hbuilds.legible hhint (isSolid_quotes hrow.isLegibleRow)

theorem makes_visitIntRange (hceiling : HasCeiling options) :
    MakesRule document firm (visitIntRange options ⟨fields, hint, ruleNameFor hint⟩) s := by
  obtain ⟨k, hk⟩ := hceiling
  refine makes_orFail_bind fun b _ => ?_
  dsimp only
  split
  · rename_i e he
    exact makes_solid hs hhint (isSolid_group_space (isSolidItem_range (hk ▸ he)))
  · exact makes_throw _

omit hhint in
/-- The expression for a pattern can be read; a pattern with a count that cannot be read has none. -/
theorem builds_expression {r : Pattern.Regex .choice} (hr : r.IsTranslatable) {name text : String}
    {dotAll : Bool} (hname : HasPlainDigits name) {t : RuleTable}
    (hrun : Pattern.Job.expression ⟨String.ofList r.text, name, dotAll⟩ s.table = .ok text t) :
    Builds document firm s { s with table := t } ∧ IsLegibleRow ("(" ++ text ++ ")") := by
  generalize hjob : (⟨String.ofList r.text, name, dotAll⟩ : Pattern.Job) = job at hrun
  obtain ⟨ts, htokens, hphrase, hcounted⟩ := Pattern.exists_tokens hr job.dotAll
  have hsource : (Pattern.lexemes job.source.toList).map Pattern.Lexeme.token = ts := by
    rwa [← hjob, String.toList_ofList]
  by_cases hshort : r.HasShortCounts
  · obtain ⟨text', t', hrun', hdevelops, hwrites⟩ :
        ∃ text' t', job.expression s.table = .ok text' t' ∧ RuleTable.Develops _ s.table t' ∧
          t'.Writes text' _ :=
      Pattern.exists_expression RuleTable.isLasting_legible (fun _ => hjob ▸ hname)
        ⟨hs.orderly.table.coherent, hs.bodies⟩ hsource hphrase (hcounted.2 hshort)
    obtain ⟨rfl, rfl⟩ := EStateM.Result.ok.inj (hrun'.symm.trans hrun)
    obtain ⟨-, hlegible⟩ := hdevelops.kept
    have hruns : RuleTable.Runs False True (fun _ => True) _ job.expression s.table :=
      Pattern.runs_expression (fun _ _ => trivial) hs.orderly.table fun _ _ _ _ _ _ => trivial
    obtain ⟨hadvances, -⟩ := (Work.leads_iff.1 hruns).1 _ _ hrun
    refine ⟨hs.withTable hadvances.weaken hlegible fun _ body hbody => .inl ?_, ?_⟩
    · exact hdevelops.root.symm.trans hbody
    · exact (Grammar.Reads.mono hwrites fun _ => hlegible.readable).group.row.isLegibleRow
  · obtain ⟨e, t', hfails⟩ := Pattern.expression_fails (t := s.table) hsource (mt hcounted.1 hshort)
    exact absurd (hfails.symm.trans hrun) (by simp)

theorem makes_visitPattern (hshape : shape fields = .pattern) (hclear : IsClear document fields) :
    MakesRule document firm (visitPattern options ⟨fields, hint, ruleNameFor hint⟩) s := by
  obtain ⟨r, hpattern, hr⟩ := hclear.pattern hshape
  have hvisit : visitPattern options ⟨fields, hint, ruleNameFor hint⟩ =
      Session.onTable (Pattern.toRule r.anchored (ruleNameFor hint) options.dotAll) := by
    unfold visitPattern
    rw [show Site.keyword ⟨fields, hint, ruleNameFor hint⟩ "pattern" = .str r.anchored from hpattern]
  rw [hvisit, Pattern.Regex.toRule_anchored]
  intro slot s' hrun
  obtain ⟨t, hwork, rfl⟩ := Session.onTable_eq_ok.1 hrun
  obtain ⟨text, t₁, hexpression, hadd⟩ := Work.bind_eq_ok.1 hwork
  have hname : HasPlainDigits (ruleNameFor hint) :=
    (requestable_ruleNameFor fun _ : True => hhint).digits trivial
  obtain ⟨hbuilds, hrow⟩ := builds_expression hs hr hname hexpression
  have hbody : IsSolid (Session.IsSolid { s with table := t₁ })
      ("\"\\\"\" (" ++ text ++ ") \"\\\"\" space") := by
    have hquotes := isSolid_quotes (V := Session.IsSolid { s with table := t₁ }) hrow
    rw [quotes_eq] at hquotes
    rwa [quotes_group_eq]
  obtain ⟨hmore, hrule⟩ := makes_solid hbuilds.legible hhint hbody slot { s with table := t }
    (Session.onTable_eq_ok.2 ⟨t, hadd, rfl⟩)
  exact ⟨hbuilds.trans hmore, hrule⟩

end Leaves

end Schema

end SchemaGrammar
