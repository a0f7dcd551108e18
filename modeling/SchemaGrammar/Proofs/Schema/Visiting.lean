import SchemaGrammar.Proofs.Schema.Builders
import SchemaGrammar.Proofs.Schema.Faults

set_option autoImplicit false

/-! # Builders keep sessions orderly

A builder is given a way to compile schemas that serves it (`Serves`): wherever it is entered, the
session stays orderly and there is a rule (`Visited`). The builder then does the same for the schema
around. This module has the builders of all schemas but objects, combined ones and references. -/

namespace SchemaGrammar

open Grammar (IsText isText_of_lexes isText_name isText_intercalate isText_literalText)
open RuleTable (Requestable escapeName)

namespace Schema

open Session (Orderly Advances Moves Runs runs_pure runs_throw runs_orFail runs_onTable runs_mapM)

/-- A string format that has a grammar has a built-in rule. -/
theorem find?_of_formatString {fields : Json.Fields} (hshape : shape fields = .formatString) :
    ∃ rule, Builtin.find? (formatRuleName (keyword fields "format").shown) = some rule := by
  have hformat : formatIs fields isGrammarFormat = true := Shape.Needs.of_eq hshape
  unfold formatIs at hformat
  split at hformat
  · rename_i format hget
    rw [keyword, hget]
    obtain ⟨rule, hrule⟩ := Option.isSome_iff_exists.1 hformat
    refine Option.ne_none_iff_exists'.1 fun hnone => ?_
    refine Assoc.lookup_eq_none_iff.1 hnone ?_
    rw [Builtin.catalog, List.map_append]
    exact List.mem_append_right _ (List.mem_map_of_mem (Assoc.mem_of_lookup hrule))
  · exact absurd hformat (by simp)

/-! ## Visits -/

/-- The names of the properties that compiling a schema makes pairs for. -/
def declaredKeys (document : Json) : Json → List String
  | .obj fields => match shape fields with
    | .object => (properties fields).map Prod.fst
    | .allOf => (combinedProperties document fields).map Prod.fst
    | _ => []
  | _ => []

/-- What compiling a schema under a hint leaves behind. -/
structure Visited (document S : Json) (hint : String) (s : Session) (name : String)
    (s' : Session) : Prop where
  has : s'.table.has name = true
  /-- A hint that still waits for its rule is not referred to: the schema has a built-in rule. -/
  left : hint ∈ s'.table.reserved → s'.ruleNames = s.ruleNames ∧ s'.history = s.history ∧
    ∀ n body, s'.table.find? n = some body →
      s.table.find? n = some body ∨ IsText (fun other => s'.table.has other = true) body
  /-- The whole schema has the root, unless a property without a name takes it away. -/
  rooted : hint = "" → s.resolver.Records document → "" ∉ declaredKeys document S →
    s.table.find? "root" = none → name = "root"

/-- From compiling one schema, another one is entered. From a reference this happens only where it
    had no rule and has got one. -/
structure Enters (document S S' : Json) (s s' : Session) : Prop where
  inside : s.resolver.Records document → S' ∈ inside document S
  resolver : s'.resolver = s.resolver
  remembers : s.Remembers s'
  fresh : ∀ ref, RefersTo ref S →
    s.ruleNames.lookup ref = none ∧ (s'.ruleNames.lookup ref).isSome = true

/-- A way to compile schemas that keeps sessions orderly wherever it is entered from a schema. -/
def Serves (document : Json) (tidy : Prop) (E : Failure → Prop) (visit : Visit) (S : Json)
    (s : Session) : Prop :=
  ∀ S' hint s', Enters document S S' s s' → s'.Orderly tidy →
    Runs tidy (hint ≠ "") E (Visited document S' hint s') (visit S' hint) s'

/-- The counts of a schema are missing or whole numbers. -/
def HasWholeCounts : Json → Prop
  | .obj fields => ∀ key ∈ ["minLength", "maxLength", "minItems", "maxItems"],
    Grammar.IsCount (keyword fields key)
  | _ => True

section Texts

variable {P : String → Prop}

theorem isText_blanks {a : String} (h : IsText P a) (hspace : P "space") : IsText P (a ++ " space") :=
  h.append_firm (isText_of_lexes ["space"] (by decide) (by simpa using hspace)) (by decide)

theorem isText_group_blanks {a : String} (h : IsText P a) (hspace : P "space") :
    IsText P ("(" ++ a ++ ") space") := by
  have hopen : IsText P "(" := isText_of_lexes [] (by decide) (by simp)
  have hclose : IsText P ") space" := isText_of_lexes ["space"] (by decide) (by simpa using hspace)
  exact hopen.between h hclose (by decide) (by decide)

theorem isText_choiceOf {literals : List String} (h : ∀ s ∈ literals, IsText P s)
    (hspace : P "space") : IsText P (choiceOf literals) :=
  isText_group_blanks
    (isText_intercalate isFirm_bar.text (by decide) (by decide) (by decide) h) hspace

theorem isText_brackets {a : String} (h : IsText P a) (hspace : P "space") :
    IsText P ("\"[\" space " ++ a ++ " \"]\" space") := by
  have hopen : IsText P "\"[\" space " :=
    isText_of_lexes ["space"] (by decide) (by simpa using hspace)
  have hclose : IsText P " \"]\" space" :=
    isText_of_lexes ["space"] (by decide) (by simpa using hspace)
  exact hopen.between h hclose (by decide) (by decide)

end Texts

theorem promises_space {tidy : Prop} {s : Session} (h : s.Orderly tidy) : s.table.Promises "space" :=
  .inl (RuleTable.has_of_find? h.table.coherent.space)

/-! ## Steps of builders -/

section Steps

variable {α β : Type} {document S : Json} {tidy quiet quiet' : Prop} {E : Failure → Prop}
variable {s s₁ : Session} {hint name body : String}

/-- Reading something from a schema. -/
theorem runs_orFail_bind {Q : β → Session → Prop} {x : Except Failure α} {f : α → CompileM β}
    (hs : s.Orderly tidy) (hx : ∀ e, x = .error e → E e)
    (hf : ∀ a, x = .ok a → Runs tidy quiet E Q (f a) s) :
    Runs tidy quiet E Q (Session.orFail x >>= f) s := by
  cases x with
  | error e => exact Work.leads_of_error rfl (.refl hs) (hx e rfl)
  | ok a => exact hf a rfl

/-- A rule that belongs to a schema. -/
theorem runs_addRule (hs : s.Orderly tidy) (hname : Requestable False name)
    (hroot : quiet → escapeName name ≠ "root") (hbody : tidy → IsText s.table.Promises body) :
    Runs tidy quiet E (fun slot s' => s'.table.has slot = true) (Session.addRule name body) s := by
  obtain ⟨hadvances, hfind, -⟩ := hs.table.add hname hbody hroot rfl
  exact Work.leads_of_ok rfl (hs.withTable hadvances) (RuleTable.has_of_find? hfind)

/-- A built-in rule under its own name. -/
theorem runs_addNamed {own : String} {rule : Builtin} (hs : s.Orderly tidy)
    (hown : Builtin.find? own = some rule) :
    Runs tidy quiet E (fun slot s' => s'.table.has slot = true) (Session.addNamed own own) s :=
  (runs_onTable hs (RuleTable.runs_addNamed hs.table hown)).mono fun _ _ _ h => h.1

/-- A hint that waits for its rule is the name of that rule. -/
theorem ruleNameFor_of_mem_reserved {t : RuleTable} (h : t.Orderly tidy) (hmem : hint ∈ t.reserved) :
    escapeName (ruleNameFor hint) = hint := by
  obtain ⟨hescape, hne, hroot⟩ := h.claims hint hmem
  have hfree := h.coherent.claimed hint hmem
  have hreserved : Builtin.reservedNames.contains (escapeName hint) = false := by
    rw [hescape, Bool.eq_false_iff]
    intro hcontains
    rcases List.mem_cons.1 (List.contains_iff_mem.1 hcontains) with heq | hin
    · exact hroot heq
    · exact Assoc.lookup_eq_none_iff.1 hfree hin
  rw [ruleNameFor, hreserved, if_neg (by simp), if_neg (by simpa using hne), hescape]

/-- What is filed under the name for a schema is the rule of that schema, if the root was left alone
    before. -/
theorem visited_of_filed {s' : Session} {slot : String} (hadvances : Advances tidy quiet' s s₁)
    (hquiet : hint = "" → s.resolver.Records document → "" ∉ declaredKeys document S → quiet')
    (hfiled : RuleTable.Filed s₁.table (ruleNameFor hint) slot s'.table)
    (hreserved : ∀ name ∈ s'.table.reserved, name ∈ s₁.table.reserved) :
    Visited document S hint s slot s' := by
  refine ⟨hfiled.has, fun hmem => ?_, fun hempty hrecords hkeys hnone => ?_⟩
  · refine absurd ?_ hfiled.filled
    have hclaimed : hint ∈ s₁.table.reserved := hreserved hint hmem
    rw [ruleNameFor_of_mem_reserved hadvances.orderly.table hclaimed]
    exact hmem
  · refine hfiled.first ?_ ?_
    · rw [hempty, ruleNameFor_empty]
      decide
    · exact (hadvances.root (hquiet hempty hrecords hkeys)).trans hnone

/-- The rule of a schema at the end of its builder. -/
theorem runs_finish (hadvances : Advances tidy quiet' s s₁)
    (hquiet : hint = "" → s.resolver.Records document → "" ∉ declaredKeys document S → quiet')
    (hbody : tidy → IsText s₁.table.Promises body) :
    Runs tidy (hint ≠ "") E (Visited document S hint s)
      (Session.addRule (ruleNameFor hint) body) s₁ := by
  have hs := hadvances.orderly
  obtain ⟨ht, -, -⟩ :=
    hs.table.add (requestable_ruleNameFor False.elim) hbody escapeName_ruleNameFor rfl
  exact Work.leads_of_ok rfl (hs.withTable ht)
    (visited_of_filed hadvances hquiet (hs.table.filed _ _) ht.reserved)

end Steps

/-! ## Builders that compile nothing inside -/

section Leaves

variable {document : Json} {tidy : Prop} {E : Failure → Prop} {s : Session}
variable {options : Options} {resolver : Resolver} {fields : Json.Fields} {hint : String}
variable (hE : ∀ e, Fault options resolver (.obj fields) e → E e) (hs : s.Orderly tidy)

include hE hs

theorem runs_visitConst (hshape : shape fields = .const) :
    Runs tidy (hint ≠ "") E (Visited document (.obj fields) hint s)
      (visitConst ⟨fields, hint, ruleNameFor hint⟩) s := by
  refine runs_orFail_bind hs (fun e he => hE e (.const hshape he)) fun _ _ => ?_
  exact runs_finish (.refl hs) (fun _ _ _ => trivial) fun _ =>
    isText_blanks (isText_literalText _) (promises_space hs)

theorem runs_visitEnum (hshape : shape fields = .enum) :
    Runs tidy (hint ≠ "") E (Visited document (.obj fields) hint s)
      (visitEnum ⟨fields, hint, ruleNameFor hint⟩) s := by
  refine runs_orFail_bind hs (fun e he => hE e (.constants hshape he)) fun values hvalues => ?_
  refine runs_orFail_bind hs (fun e he => hE e (.digits hshape hvalues he)) fun _ _ => ?_
  refine runs_finish (.refl hs) (fun _ _ _ => trivial) fun _ => ?_
  refine isText_choiceOf (fun literal hliteral => ?_) (promises_space hs)
  obtain ⟨v, -, rfl⟩ := List.mem_map.1 hliteral
  exact isText_literalText _

theorem runs_visitPattern (hshape : shape fields = .pattern) :
    Runs tidy (hint ≠ "") E (Visited document (.obj fields) hint s)
      (visitPattern options ⟨fields, hint, ruleNameFor hint⟩) s := by
  unfold visitPattern
  split
  · rename_i pattern hkeyword
    have hpattern : ∀ e, Pattern.Fault pattern e → E e := fun e he => hE e (.pattern hshape hkeyword he)
    refine (runs_onTable hs (Pattern.runs_toRule hs.table hpattern (requestable_ruleNameFor False.elim)
      escapeName_ruleNameFor)).mono fun slot s' hadvances hfiled => ?_
    exact visited_of_filed (.refl hs) (fun _ _ _ => trivial) hfiled.1 hadvances.reserved
  · rename_i hkind
    exact runs_throw hs (hE _ (.patternKind hshape hkind))

omit hE in
/-- A built-in rule that is the rule of a schema: the root where it is the whole schema. -/
theorem runs_builtinName {own asked : String} {rule : Builtin} (hown : Builtin.find? own = some rule)
    (hroot : escapeName asked ≠ "root") (hasked : asked = own ∨ Requestable False asked) :
    Runs tidy (hint ≠ "") E (Visited document (.obj fields) hint s)
      (Session.addNamed (builtinName ⟨fields, hint, ruleNameFor hint⟩ asked) own) s := by
  have hname : builtinName ⟨fields, hint, ruleNameFor hint⟩ asked = if hint = "" then "root" else asked := by
    simp [builtinName, ruleNameFor_eq_root]
  rw [hname]
  have hrequest : (if hint = "" then "root" else asked) = own ∨
      Requestable False (if hint = "" then "root" else asked) := by
    split_ifs
    · exact .inr ⟨by decide, by decide, False.elim⟩
    · exact hasked
  have hquiet : hint ≠ "" → escapeName (if hint = "" then "root" else asked) ≠ "root" := by
    intro hne
    rwa [if_neg hne]
  obtain ⟨slot, t, hrun, hadvances, hsupplies⟩ := hs.table.addNamed hown hrequest hquiet
  have hdone : Session.addNamed (if hint = "" then "root" else asked) own s =
      .ok slot { s with table := t } := by
    rw [Session.addNamed, Session.onTable, hrun]
  refine Work.leads_of_ok hdone (hs.withTable hadvances)
    ⟨hsupplies.has, fun _ => ⟨rfl, rfl, hsupplies.bodies⟩, fun hempty _ _ hnone => ?_⟩
  rw [hsupplies.slot_eq, if_pos hempty]
  exact RuleTable.add_of_find?_eq_none s.table "root" _ hnone

omit hE in
theorem runs_visitUuid (hshape : shape fields = .uuid) :
    Runs tidy (hint ≠ "") E (Visited document (.obj fields) hint s)
      (visitUuid ⟨fields, hint, ruleNameFor hint⟩) s := by
  obtain ⟨hroot, hasked⟩ := asked_of_isUuidFormat (isUuidFormat_of_shape hshape)
  exact runs_builtinName hs rfl hroot hasked

omit hE in
theorem runs_visitPrimitive (hshape : shape fields = .primitive) :
    Runs tidy (hint ≠ "") E (Visited document (.obj fields) hint s)
      (visitPrimitive ⟨fields, hint, ruleNameFor hint⟩) s := by
  have htype := isPrimitive_of_shape hshape
  have hall : ∀ type ∈ Builtin.typeNames, (Builtin.find? type).isSome = true := by decide
  obtain ⟨rule, hrule⟩ := Option.isSome_iff_exists.1 (hall _ (List.contains_iff_mem.1 htype))
  exact runs_builtinName hs hrule (asked_of_isPrimitive htype) (.inl rfl)

omit hE in
/-- A built-in rule that the rule of a schema refers to. -/
theorem runs_alias {own : String} {rule : Builtin} (hown : Builtin.find? own = some rule) :
    Runs tidy (hint ≠ "") E (Visited document (.obj fields) hint s)
      (do Session.addRule (ruleNameFor hint) (← Session.addNamed own own)) s := by
  refine (runs_addNamed hs hown).bind (fun _ => trivial) fun slot s₁ hadvances hslot => ?_
  exact runs_finish hadvances (fun _ _ _ => trivial) fun _ => isText_name (.inl hslot)

omit hE in
theorem runs_visitFormatString (hshape : shape fields = .formatString) :
    Runs tidy (hint ≠ "") E (Visited document (.obj fields) hint s)
      (visitFormatString ⟨fields, hint, ruleNameFor hint⟩) s := by
  obtain ⟨rule, hrule⟩ := find?_of_formatString hshape
  exact runs_alias hs hrule

omit hE in
theorem runs_visitGenericObject : Runs tidy (hint ≠ "") E (Visited document (.obj fields) hint s)
    (visitGenericObject ⟨fields, hint, ruleNameFor hint⟩) s :=
  runs_alias hs (show Builtin.find? "object" = some _ from rfl)

/-- The counts of a schema as an expression takes them. -/
theorem runs_counted {minKey maxKey : String} {build : Json → Json → Except Failure String}
    (hbuild : ∀ e, build (orElse (Json.Fields.get? fields minKey) (.num (.whole 0)))
      (keyword fields maxKey) = .error e → (∀ fault, e ≠ .count fault) → E e) {quiet : Prop} :
    Runs tidy quiet E (fun e s' => s' = s ∧
        build (orElse (Json.Fields.get? fields minKey) (.num (.whole 0))) (keyword fields maxKey) = .ok e)
      (counted ⟨fields, hint, ruleNameFor hint⟩ minKey maxKey build) s := by
  unfold counted
  dsimp only
  split
  · exact runs_throw hs (hE _ .counts)
  · rename_i hkind
    refine runs_orFail hs (fun e he => ⟨rfl, he⟩) fun e he => hbuild e he fun fault hfault => ?_
    exact hkind fault (hfault ▸ he)

omit hE hs in
theorem isCount_orElse {v : Option Json} (h : Grammar.IsCount (v.getD .null)) :
    Grammar.IsCount (orElse v (.num (.whole 0))) := by
  unfold orElse
  split
  · split_ifs
    · exact .inr ⟨0, rfl⟩
    · exact h
  · exact .inr ⟨0, rfl⟩

theorem runs_visitBoundedString (hcounts : tidy → HasWholeCounts (.obj fields))
    (hshape : shape fields = .boundedString) :
    Runs tidy (hint ≠ "") E (Visited document (.obj fields) hint s)
      (visitBoundedString ⟨fields, hint, ruleNameFor hint⟩) s := by
  refine (runs_addNamed hs (show Builtin.find? "char" = some _ from rfl)).bind (fun _ => trivial)
    fun char s₁ hadvances hchar => ?_
  refine (runs_counted hE hadvances.orderly fun e he hkind => hE e (.lengths hshape he hkind)).bind
    (fun _ => trivial) fun chars s₂ _ hchars => ?_
  obtain ⟨rfl, hread⟩ := hchars
  refine runs_finish hadvances (fun _ _ _ => trivial) fun htidy => ?_
  have hlow := isCount_orElse (hcounts htidy "minLength" (by simp))
  have hhigh := hcounts htidy "maxLength" (by simp)
  have hitem : IsText s₂.table.Promises char := isText_name (.inl hchar)
  have htext := (Grammar.isText_repetition hitem hlow hhigh hread).1
  have hspace := promises_space hadvances.orderly
  have hopen : IsText s₂.table.Promises "\"\\\"\" " := isText_of_lexes [] (by decide) (by simp)
  have hclose : IsText s₂.table.Promises " \"\\\"\" space" :=
    isText_of_lexes ["space"] (by decide) (by simpa using hspace)
  exact hopen.between htext hclose (by decide) (by decide)

theorem runs_visitIntRange (hshape : shape fields = .intRange) :
    Runs tidy (hint ≠ "") E (Visited document (.obj fields) hint s)
      (visitIntRange options ⟨fields, hint, ruleNameFor hint⟩) s := by
  refine runs_orFail_bind hs (fun e he => hE e (.bounds hshape he)) fun b _ => ?_
  split
  · rename_i e he
    refine runs_finish (.refl hs) (fun _ _ _ => trivial) fun _ => ?_
    exact isText_group_blanks (IntRange.isFirm_expression he).text (promises_space hs)
  · exact runs_throw hs (hE _ .range)

end Leaves

/-! ## Alternatives and lists -/

section Nested

variable {document : Json} {tidy : Prop} {E : Failure → Prop} {visit : Visit} {s : Session}
variable {options : Options} {resolver : Resolver} {fields : Json.Fields} {hint : String}
variable (hE : ∀ e, Fault options resolver (.obj fields) e → E e)
variable (hvisit : Serves document tidy E visit (.obj fields) s) (hs : s.Orderly tidy)

omit hE in
/-- Entering what is inside a schema that is no reference. -/
theorem Serves.runs {S' : Json} {hint' : String} {s₁ : Session} {quiet : Prop}
    (hvisit : Serves document tidy E visit (.obj fields) s) (hshape : shape fields ≠ .ref)
    (hinside : s.resolver.Records document → S' ∈ inside document (.obj fields))
    (hadvances : Advances tidy quiet s s₁) :
    Runs tidy (hint' ≠ "") E (Visited document S' hint' s₁) (visit S' hint') s₁ := by
  refine hvisit S' hint' s₁ ⟨hinside, hadvances.resolver, hadvances.remembers, ?_⟩ hadvances.orderly
  rintro ref ⟨fields', heq, href, -⟩
  obtain rfl := Json.obj.inj heq
  exact absurd href hshape

include hvisit hs

/-- Schemas one after the other, with hints that depend on their places and are never empty. -/
theorem runs_zipIdx {schemas : List Json} {hintOf : Nat → String} (hshape : shape fields ≠ .ref)
    (hhint : ∀ i, hintOf i ≠ "")
    (hinside : s.resolver.Records document → ∀ S' ∈ schemas, S' ∈ inside document (.obj fields)) :
    Runs tidy True E (fun names s' => ∀ name ∈ names, s'.table.has name = true)
      (schemas.zipIdx.mapM fun x => visit x.1 (hintOf x.2)) s := by
  refine runs_mapM hs fun x hx s₁ hadvances => ?_
  have hmem : x.1 ∈ schemas := List.fst_mem_of_mem_zipIdx hx
  exact ((hvisit.runs hshape (fun hrecords => hinside hrecords x.1 hmem) hadvances).weaken
    fun _ => hhint x.2).mono fun name s' _ h => h.has

theorem runs_alternatives {schemas : List Json} (hshape : shape fields ≠ .ref)
    (hinside : s.resolver.Records document → ∀ S' ∈ schemas, S' ∈ inside document (.obj fields)) :
    Runs tidy True E (fun text s' => IsText s'.table.Promises text)
      (alternatives visit hint schemas) s := by
  have hhint (i : Nat) : (if hint.isEmpty then "alternative" else hint) ++ "-" ++ natText i ≠ "" := by
    simp
  refine (runs_zipIdx hvisit hs hshape hhint hinside).bind id fun names s' hadvances hnames => ?_
  refine runs_pure hadvances.orderly ?_
  exact isText_intercalate isFirm_bar.text (by decide) (by decide) (by decide)
    fun name hname => isText_name (.inl (hnames name hname))

include hE

theorem runs_visitUnion (hshape : shape fields = .union) :
    Runs tidy (hint ≠ "") E (Visited document (.obj fields) hint s)
      (visitUnion visit ⟨fields, hint, ruleNameFor hint⟩) s := by
  refine runs_orFail_bind hs (fun e he => hE e (.choices hshape he)) fun schemas hschemas => ?_
  have hinside : inside document (.obj fields) = schemas := by
    rw [inside, hshape]
    exact valuesOf_of_elements hschemas
  refine (runs_alternatives hvisit hs (by simp [hshape]) fun _ S' hS' => hinside ▸ hS').bind
    (fun _ => trivial) fun text s₁ hadvances htext => ?_
  exact runs_finish hadvances (fun _ _ _ => trivial) fun _ => htext

theorem runs_visitTypeUnion (hshape : shape fields = .typeUnion) :
    Runs tidy (hint ≠ "") E (Visited document (.obj fields) hint s)
      (visitTypeUnion visit ⟨fields, hint, ruleNameFor hint⟩) s := by
  refine runs_orFail_bind hs (fun e he => hE e (.types hshape he)) fun types htypes => ?_
  have hinside : inside document (.obj fields) =
      types.map fun t => Json.obj (Json.Fields.set fields "type" t) := by
    rw [inside, hshape]
    exact congrArg _ (valuesOf_of_elements htypes)
  refine (runs_alternatives hvisit hs (by simp [hshape]) fun _ S' hS' => hinside ▸ hS').bind
    (fun _ => trivial) fun text s₁ hadvances htext => ?_
  exact runs_finish hadvances (fun _ _ _ => trivial) fun _ => htext

omit hE in
theorem runs_visitTuple (hshape : shape fields = .tuple) :
    Runs tidy (hint ≠ "") E (Visited document (.obj fields) hint s)
      (visitTuple visit ⟨fields, hint, ruleNameFor hint⟩) s := by
  have hinside : inside document (.obj fields) = tupleItems fields := by rw [inside, hshape]
  have hhint (i : Nat) : subName hint ("tuple-" ++ natText i) ≠ "" :=
    subName_ne_empty (.inr (by simp))
  refine (runs_zipIdx hvisit hs (by simp [hshape]) hhint fun _ S' hS' => hinside ▸ hS').bind
    (fun _ => trivial) fun names s₁ hadvances hnames => ?_
  refine runs_finish hadvances (fun _ _ _ => trivial) fun _ => ?_
  have hspace := promises_space hadvances.orderly
  have hcomma : IsFirm s₁.table.Promises " \",\" space " :=
    isFirm_of_lexes ["space"] (by decide) (by simpa using hspace) (by decide) (by decide)
  exact isText_brackets (isText_intercalate hcomma.text (by decide) hcomma.starts hcomma.ends
    fun name hname => isText_name (.inl (hnames name hname))) hspace

omit hvisit hs in
/-- A list whose items have a rule. -/
theorem runs_list (hcounts : tidy → HasWholeCounts (.obj fields)) (hshape : shape fields = .array)
    {rule : String} {s₁ : Session}
    (hadvances : Advances tidy True s s₁) (hrule : s₁.table.has rule = true) :
    Runs tidy (hint ≠ "") E (Visited document (.obj fields) hint s) (do
      let items ← counted ⟨fields, hint, ruleNameFor hint⟩ "minItems" "maxItems"
        (Grammar.separatedRepetition rule "\",\" space")
      Session.addRule (ruleNameFor hint) ("\"[\" space " ++ items ++ " \"]\" space")) s₁ := by
  refine (runs_counted hE hadvances.orderly fun e he hkind => hE e (.itemCounts hshape he hkind)).bind
    (fun _ => trivial) fun items s₂ _ hitems => ?_
  obtain ⟨rfl, hread⟩ := hitems
  refine runs_finish hadvances (fun _ _ _ => trivial) fun htidy => ?_
  have hlow := isCount_orElse (hcounts htidy "minItems" (by simp))
  have hhigh := hcounts htidy "maxItems" (by simp)
  have hspace := promises_space hadvances.orderly
  have hcomma : IsText s₂.table.Promises "\",\" space" :=
    isText_of_lexes ["space"] (by decide) (by simpa using hspace)
  have hlast : ∀ c ∈ rule.toList.getLast?, Text.isBlank c = false := fun c hc =>
    RuleTable.isBlank_of_keepsInName
      ((hadvances.orderly.table.coherent.storable rule hrule).2 c (List.mem_of_getLast? hc))
  have hitem : IsText s₂.table.Promises rule := isText_name (.inl hrule)
  exact isText_brackets
    (Grammar.isText_separatedRepetition hitem hcomma hlast hlow hhigh hread) hspace

theorem runs_visitArray (hcounts : tidy → HasWholeCounts (.obj fields))
    (hshape : shape fields = .array) :
    Runs tidy (hint ≠ "") E (Visited document (.obj fields) hint s)
      (visitArray visit ⟨fields, hint, ruleNameFor hint⟩) s := by
  have hvalue : Runs tidy True E (fun slot s' => s'.table.has slot = true)
      (Session.addNamed "value" "value") s :=
    runs_addNamed hs (show Builtin.find? "value" = some _ from rfl)
  unfold visitArray
  dsimp only
  split
  · refine runs_finish (.refl hs) (fun _ _ _ => trivial) fun _ => ?_
    exact isText_of_lexes ["space"] (by decide) (by simpa using promises_space hs)
  · exact hvalue.bind (fun _ => trivial) fun slot s₁ => runs_list hE hcounts hshape
  · exact hvalue.bind (fun _ => trivial) fun slot s₁ => runs_list hE hcounts hshape
  · rename_i hfalse htrue hempty
    have hinside : inside document (.obj fields) = [keyword fields "items"] := by
      rw [inside, hshape]
      dsimp only
      unfold itemSchemas
      split
      · rename_i b hb
        cases b with
        | false => exact absurd hb hfalse
        | true => exact absurd hb htrue
      · rename_i hnil
        exact absurd hnil hempty
      · rfl
    have hitem : subName hint "item" ≠ "" := subName_ne_empty (.inr (by decide))
    have hruns : Runs tidy (subName hint "item" ≠ "") E _
        (visit (keyword fields "items") (subName hint "item")) s :=
      hvisit.runs (by simp [hshape]) (fun _ => hinside ▸ List.mem_singleton.2 rfl)
        (Advances.refl hs : Advances tidy True s s)
    refine (hruns.weaken fun _ => hitem).bind (fun _ => trivial) fun slot s₁ hadvances hslot => ?_
    exact runs_list hE hcounts hshape hadvances hslot.has

end Nested

end Schema

end SchemaGrammar
