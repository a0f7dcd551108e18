import SchemaGrammar.Proofs.Schema.Entries
import SchemaGrammar.Proofs.Schema.Visiting

set_option autoImplicit false

/-! # The builders of objects keep sessions orderly

The pairs of an object, its optional part and its additional properties add rules whose names end
in a way that no built-in name does, so none of them takes the root. Only the value of a property
without a name may. What a combined schema adds up to is read from the document alone
(`runs_addBranches`). -/

namespace SchemaGrammar

open Grammar (IsText isText_of_lexes isText_name isText_intercalate isText_literalText isText_empty
  startsFirm_append endsFirm_append)
open RuleTable (Requestable escapeName IsForeignEnding keepsInName HasPlainDigits)

namespace Schema

open Session (Orderly Advances Runs runs_pure runs_throw runs_orFail runs_onTable)

section Objects

variable {document : Json} {tidy quiet : Prop} {E : Failure → Prop} {visit : Visit} {s : Session}
variable {fields : Json.Fields} {name : String}

section Texts

variable {P : String → Prop} (hspace : P "space")

include hspace

theorem isText_entryText (present : Bool) {entry : Entry} (h : IsText P entry.pair) :
    IsText P (entryText present entry) := by
  have hopen : IsText P "( \",\" space " :=
    isText_of_lexes ["space"] (by decide) (by simpa using hspace)
  have hstar : IsText P ("( \",\" space " ++ entry.pair ++ (" )" ++ "*")) :=
    hopen.between h (isText_of_lexes [] (by decide) (by simp)) (by decide) (by decide)
  have hoptional : IsText P ("( \",\" space " ++ entry.pair ++ (" )" ++ "?")) :=
    hopen.between h (isText_of_lexes [] (by decide) (by simp)) (by decide) (by decide)
  unfold entryText
  dsimp only
  split_ifs
  · have hmore : IsText P (" " ++ ("( \",\" space " ++ entry.pair ++ (" )" ++ "*"))) :=
      isFirm_blank.text.firm_append hstar (by decide)
    have htext := h.append_firm hmore (startsFirm_append (by decide) (by decide))
    simpa only [String.append_assoc] using htext
  · simpa using h
  · simpa only [String.append_assoc] using hstar
  · simpa only [String.append_assoc] using hoptional

theorem isText_optional {choices : String} (h : IsText P choices) (hasRequired : Bool) :
    IsText P (" (" ++ (if hasRequired then " \",\" space ( " ++ choices ++ " )" else choices) ++
      " )?") := by
  have hopen : IsText P " (" := isText_of_lexes [] (by decide) (by simp)
  have hclose : IsText P " )?" := isText_of_lexes [] (by decide) (by simp)
  refine hopen.between ?_ hclose (by decide) (by decide)
  split_ifs
  · have hcomma : IsText P " \",\" space ( " :=
      isText_of_lexes ["space"] (by decide) (by simpa using hspace)
    have hinner : IsText P " )" := isText_of_lexes [] (by decide) (by simp)
    exact hcomma.between h hinner (by decide) (by decide)
  · exact h

theorem isText_object {first rest : String} (hfirst : IsText P first) (hrest : IsText P rest)
    (hstarts : Grammar.StartsFirm rest) :
    IsText P ("\"\x7b\" space " ++ first ++ rest ++ " \"\x7d\" space") := by
  have hopen : IsText P "\"\x7b\" space " :=
    isText_of_lexes ["space"] (by decide) (by simpa using hspace)
  have hclose : IsText P " \"\x7d\" space" :=
    isText_of_lexes ["space"] (by decide) (by simpa using hspace)
  exact (hopen.between hfirst hrest (by decide) hstarts).append_firm hclose (by decide)

end Texts

/-! ## Entries -/

/-- The pairs of all entries refer to rules that are there. -/
def AreTidy (t : RuleTable) (entries : List Entry) : Prop :=
  ∀ entry ∈ entries, IsText t.Promises entry.pair

theorem AreTidy.advance {entries : List Entry} {s₁ : Session} (h : AreTidy s.table entries)
    (hadvances : Advances tidy quiet s s₁) : AreTidy s₁.table entries :=
  fun entry hentry => (h entry hentry).mono hadvances.promises

theorem runs_entriesFrom (hs : s.Orderly tidy) (present : Bool) {entries : List Entry}
    (hentries : AreTidy s.table entries) :
    Runs tidy True E (fun text s' => IsText s'.table.Promises text)
      (entriesFrom name present entries) s := by
  induction entries generalizing s present with
  | nil => exact runs_pure hs isText_empty
  | cons entry rest ih =>
    rw [entriesFrom_cons]
    have hpair := hentries entry (by simp)
    split_ifs
    · exact runs_pure hs (isText_entryText (promises_space hs) present hpair)
    · refine (ih hs false fun other hother => hentries other (List.mem_cons_of_mem _ hother)).bind id
        fun following s₁ hadvances hfollowing => ?_
      obtain ⟨hname, hroot⟩ := requestable_key (show "-rest" ∈ _ by simp) False.elim
        False.elim
      refine (runs_addRule hadvances.orderly hname (fun _ => hroot) fun _ => hfollowing).bind id
        fun rule s₂ hadvances' hrule => ?_
      refine runs_pure hadvances'.orderly ?_
      have hkept := hpair.mono (hadvances.trans hadvances').promises
      have htext := isText_entryText (promises_space hadvances'.orderly) present hkept
      exact (htext.append_firm isFirm_blank.text (by decide)).firm_append (isText_name (.inl hrule))
        (endsFirm_append (by decide) (by decide))

theorem runs_startings (hs : s.Orderly tidy) {entries : List Entry}
    (hentries : AreTidy s.table entries) :
    Runs tidy True E (fun texts s' => ∀ text ∈ texts, IsText s'.table.Promises text)
      (startings name entries) s := by
  induction entries generalizing s with
  | nil => exact runs_pure hs (by simp)
  | cons entry rest ih =>
    rw [startings]
    refine (runs_entriesFrom hs true hentries).bind id fun here s₁ hadvances hhere => ?_
    have hrest : AreTidy s₁.table rest := fun other hother =>
      hentries.advance hadvances other (List.mem_cons_of_mem _ hother)
    refine (ih hadvances.orderly hrest).bind id fun others s₂ hadvances' hothers => ?_
    refine runs_pure hadvances'.orderly fun text htext => ?_
    rcases List.mem_cons.1 htext with rfl | htext
    · exact hhere.mono hadvances'.promises
    · exact hothers text htext

theorem runs_optionalPart (hs : s.Orderly tidy) (hasRequired : Bool) {entries : List Entry}
    (hentries : AreTidy s.table entries) :
    Runs tidy True E (fun text s' => IsText s'.table.Promises text ∧ Grammar.StartsFirm text)
      (optionalPart name hasRequired entries) s := by
  unfold optionalPart
  split
  · exact runs_pure hs ⟨isText_empty, by simp [Grammar.StartsFirm]⟩
  · refine (runs_startings hs hentries).bind id fun texts s₁ hadvances htexts => ?_
    have hchoices := isText_intercalate isFirm_bar.text (by decide) (by decide) (by decide) htexts
    refine runs_pure hadvances.orderly
      ⟨isText_optional (promises_space hadvances.orderly) hchoices hasRequired, ?_⟩
    exact startsFirm_append (startsFirm_append (by decide) (by decide)) (by simp)

/-! ## Pairs -/

theorem runs_bodyFor {t : RuleTable} (h : t.Orderly tidy) (values : List Json) :
    RuleTable.Runs tidy True E (fun body t' => IsText t'.Promises body) (Exclusion.bodyFor values) t := by
  refine (RuleTable.runs_addNamed h (show Builtin.find? "char" = some _ from rfl)).bind
    fun char t' hadvances hchar => ?_
  have hspace : t'.Promises "space" := .inl (RuleTable.has_of_find? hadvances.orderly.coherent.space)
  exact RuleTable.runs_pure hadvances.orderly
    (Exclusion.isText_body (isText_name (.inl hchar)) hspace _)

section Pairs

variable (hvisit : Serves document tidy E visit (.obj fields) s) (hshape : shape fields ≠ .ref)

include hvisit hshape

theorem runs_pairRule {key : String} {S : Json} {s₁ : Session}
    (hinside : s.resolver.Records document → S ∈ inside document (.obj fields))
    (hkey : quiet → subName name key ≠ "") (hadvances : Advances tidy quiet s s₁) :
    Runs tidy quiet E (fun rule s' => s'.table.has rule = true) (pairRule visit name (key, S)) s₁ := by
  refine ((hvisit.runs hshape hinside hadvances).weaken hkey).bind id
    fun value s₂ hadvances' hvalue => ?_
  obtain ⟨hname, hroot⟩ := requestable_key (show "-kv" ∈ _ by simp) False.elim False.elim
  refine runs_addRule hadvances'.orderly hname (fun _ => hroot) fun _ => ?_
  have hspace := promises_space hadvances'.orderly
  have hkey : IsText s₂.table.Promises (constant (.str key)) := isText_literalText _
  have hcolon : IsText s₂.table.Promises " space \":\" space " :=
    isText_of_lexes ["space"] (by decide) (by simpa using hspace)
  exact (hkey.append_firm hcolon (by decide)).firm_append (isText_name (.inl hvalue.has))
    (endsFirm_append (by decide) (by decide))

theorem runs_pairRules {properties : List (String × Json)} {done : List (String × String)}
    {s₁ : Session}
    (hinside : s.resolver.Records document →
      ∀ x ∈ properties, x.2 ∈ inside document (.obj fields))
    (hkeys : quiet → ∀ x ∈ properties, subName name x.1 ≠ "")
    (hadvances : Advances tidy quiet s s₁)
    (hdone : ∀ key rule, done.lookup key = some rule → s₁.table.has rule = true) :
    Runs tidy quiet E
      (fun pairs s' => ∀ key rule, pairs.lookup key = some rule → s'.table.has rule = true)
      (pairRules visit name properties done) s₁ := by
  induction properties generalizing done s₁ with
  | nil => exact runs_pure hadvances.orderly hdone
  | cons x rest ih =>
    rw [pairRules]
    refine (runs_pairRule hvisit hshape (fun hrecords => hinside hrecords x (by simp))
      (fun hquiet => hkeys hquiet x (by simp)) hadvances).bind id fun rule s₂ hadvances' hrule => ?_
    refine ih (fun hrecords y hy => hinside hrecords y (List.mem_cons_of_mem _ hy))
      (fun hquiet y hy => hkeys hquiet y (List.mem_cons_of_mem _ hy)) (hadvances.trans hadvances')
      fun key other hother => ?_
    rw [Assoc.lookup_set] at hother
    split_ifs at hother
    · exact Option.some.inj hother ▸ hrule
    · exact hadvances'.extends_.has (hdone key other hother)

omit hvisit hshape in
/-- What stands between a rule for keys and a rule for values is the entry for additional
    properties. -/
theorem runs_additionalPair {value : String} (hs : s.Orderly tidy) (hvalue : s.table.has value = true)
    (keys : List String) :
    Runs tidy True E (fun entries s' => AreTidy s'.table entries) (additionalPair name keys value)
      s := by
  have hpair : ∀ key s₁, Advances tidy True s s₁ → s₁.table.has key = true →
      Runs tidy True E (fun entries s' => AreTidy s'.table entries) (do
        let pair ← Session.addRule (subName name "additional" ++ "-kv")
          (key ++ " \":\" space " ++ value)
        return [⟨"*", pair, true⟩]) s₁ := by
    intro key s₁ hadvances hkey
    obtain ⟨hname, hroot⟩ := requestable_additional (show "-kv" ∈ _ by simp) False.elim
    have hcolon : IsText s₁.table.Promises " \":\" space " :=
      isText_of_lexes ["space"] (by decide) (by simpa using promises_space hadvances.orderly)
    have hbody : IsText s₁.table.Promises (key ++ " \":\" space " ++ value) :=
      ((isText_name (.inl hkey)).append_firm hcolon (by decide)).firm_append
        (isText_name (.inl (hadvances.extends_.has hvalue))) (endsFirm_append (by decide) (by decide))
    refine (runs_addRule hadvances.orderly hname (fun _ => hroot) fun _ => hbody).bind id
      fun pair s₂ hadvances' hpair => ?_
    refine runs_pure hadvances'.orderly fun entry hentry => ?_
    obtain rfl := List.mem_singleton.1 hentry
    exact isText_name (.inl hpair)
  refine Runs.bind ?_ id hpair
  unfold additionalKey
  split_ifs
  · exact runs_addNamed hs (show Builtin.find? "string" = some _ from rfl)
  · refine (runs_onTable hs (runs_bodyFor hs.table _)).bind id fun body s₁ hadvances hbody => ?_
    obtain ⟨hname, hroot⟩ := requestable_additional (show "-k" ∈ _ by simp) False.elim
    exact runs_addRule hadvances.orderly hname (fun _ => hroot) fun _ => hbody.1

/-- The entry for additional properties. -/
theorem runs_additionalEntry {keys : List String} {allowed : Json} {s₁ : Session}
    (hinside : s.resolver.Records document →
      ∀ inner, allowed = .obj inner → inner ≠ [] → allowed ∈ inside document (.obj fields))
    (hadvances : Advances tidy quiet s s₁) :
    Runs tidy True E (fun entries s' => AreTidy s'.table entries)
      (additionalEntry visit name keys allowed) s₁ := by
  have hvalue : Runs tidy True E (fun slot s' => s'.table.has slot = true)
      (Session.addNamed "value" "value") s₁ :=
    runs_addNamed hadvances.orderly (show Builtin.find? "value" = some _ from rfl)
  rw [additionalEntry_eq]
  split
  · exact hvalue.bind id fun value s₂ hadvances' hhas =>
      runs_additionalPair hadvances'.orderly hhas keys
  · exact hvalue.bind id fun value s₂ hadvances' hhas =>
      runs_additionalPair hadvances'.orderly hhas keys
  · rename_i inner hinner
    have hbase : subName name "additional" ++ "-value" ≠ "" := by simp
    refine ((hvisit.runs hshape (fun hrecords => hinside hrecords inner rfl hinner) hadvances).weaken
      fun _ => hbase).bind id fun value s₂ hadvances' hvisited => ?_
    exact runs_additionalPair hadvances'.orderly hvisited.has keys
  · exact runs_pure hadvances.orderly (by simp [AreTidy])

/-! ## Whole objects -/

variable {options : Options} {resolver : Resolver}
variable (hE : ∀ e, Fault options resolver (.obj fields) e → E e)

include hE

theorem runs_objectBody {properties : List (String × Json)}
    {required : List String} {additional : Json} (hs : s.Orderly tidy)
    (hinside : s.resolver.Records document →
      (∀ x ∈ properties, x.2 ∈ inside document (.obj fields)) ∧
      ∀ inner, additional = .obj inner → inner ≠ [] → additional ∈ inside document (.obj fields)) :
    Runs tidy (name = "" → "" ∉ properties.map Prod.fst) E
      (fun text s' => IsText s'.table.Promises text)
      (objectBody visit options name properties required additional) s := by
  refine runs_orFail_bind hs (fun e he => hE e (.order he)) fun keys _ => ?_
  have hkeys : (name = "" → "" ∉ properties.map Prod.fst) →
      ∀ x ∈ properties, subName name x.1 ≠ "" := by
    intro hquiet x hx hempty
    obtain ⟨hname, hkey⟩ := subName_eq_empty hempty
    exact hquiet hname (hkey ▸ List.mem_map_of_mem hx)
  refine (runs_pairRules hvisit hshape (fun hrecords => (hinside hrecords).1) hkeys (.refl hs)
    (by simp)).bind id fun pairs s₁ hadvances hpairs => ?_
  have hpairOf (key : String) : IsText s₁.table.Promises ((pairs.lookup key).getD "") := by
    cases hlookup : pairs.lookup key with
    | none => exact isText_empty
    | some rule => exact isText_name (.inl (hpairs key rule hlookup))
  refine (runs_additionalEntry hvisit hshape (fun hrecords => (hinside hrecords).2) hadvances).bind
    (fun _ => trivial) fun extra s₂ hadvances' hextra => ?_
  have hentries : AreTidy s₂.table ((keys.filter fun key => !required.contains key).map
      (fun key => (⟨key, (pairs.lookup key).getD "", false⟩ : Entry)) ++ extra) := by
    intro entry hentry
    rcases List.mem_append.1 hentry with hentry | hentry
    · obtain ⟨key, -, rfl⟩ := List.mem_map.1 hentry
      exact (hpairOf key).mono hadvances'.promises
    · exact hextra entry hentry
  refine (runs_optionalPart hadvances'.orderly _ hentries).bind (fun _ => trivial)
    fun rest s₃ hadvances'' hrest => ?_
  refine runs_pure hadvances''.orderly ?_
  have hspace := promises_space hadvances''.orderly
  have hcomma : IsFirm s₃.table.Promises " \",\" space " :=
    isFirm_of_lexes ["space"] (by decide) (by simpa using hspace) (by decide) (by decide)
  refine isText_object hspace (isText_intercalate hcomma.text (by decide) hcomma.starts hcomma.ends
    fun text htext => ?_) hrest.1 hrest.2
  obtain ⟨key, -, rfl⟩ := List.mem_map.1 htext
  exact (hpairOf key).mono fun other hother =>
    hadvances''.promises other (hadvances'.promises other hother)

omit hshape in
theorem runs_visitObject {hint : String} (hs : s.Orderly tidy)
    (hshape : shape fields = .object) :
    Runs tidy (hint ≠ "") E (Visited document (.obj fields) hint s)
      (visitObject visit options ⟨fields, hint, ruleNameFor hint⟩) s := by
  refine runs_orFail_bind hs (fun e he => hE e (.properties hshape he)) fun declared hdeclared => ?_
  refine runs_orFail_bind hs (fun e he => hE e (.required hshape he)) fun required _ => ?_
  have hproperties : properties fields = declared := by rw [properties, hdeclared]
  have hinside : inside document (.obj fields) =
      declared.map Prod.snd ++ additionalSchemas fields := by
    rw [inside, hshape, ← hproperties]
  refine (runs_objectBody hvisit (by simp [hshape]) hE hs fun _ => ⟨fun x hx => ?_, ?_⟩).bind
    (fun hne hempty => absurd hempty hne) fun body s₁ hadvances hbody => ?_
  · rw [hinside]
    exact List.mem_append_left _ (List.mem_map_of_mem hx)
  · intro inner hinner hne
    rw [hinside]
    refine List.mem_append_right _ ?_
    have hkeyword : keyword fields "additionalProperties" = .obj inner := hinner
    rw [hinner, additionalSchemas, hkeyword]
    cases inner with
    | nil => exact absurd rfl hne
    | cons _ _ => exact List.mem_singleton.2 rfl
  · refine runs_finish hadvances (fun _ _ hkeys _ => ?_) fun _ => hbody
    rwa [declaredKeys, hshape, hproperties] at hkeys

end Pairs

end Objects

/-! ## Combined schemas -/

/-- What a combined schema has added up to is what its parts hold. -/
def Holds (document : Json) (m : Merged) (parts : List Json) : Prop :=
  m.properties = (parts.flatMap fun part => properties (partFields document part)) ∧
    m.enums = parts.filterMap (partConstants document)

theorem Holds.add {document part value : Json} {m : Merged} {parts : List Json}
    (h : Holds document m parts) (hvalue : partValue document part = value) {fields : Json.Fields}
    (hfields : fieldsFor "get" value = .ok fields) {declared : Json.Fields}
    (hdeclared : declaredProperties fields = .ok declared) {required : List String}
    {enums : List (List String)}
    (henums : enums = ((Json.Fields.get? fields "enum").map fun v =>
      ((valuesOf v).map Json.compact).eraseDups).toList) :
    Holds document ⟨required, m.properties ++ declared, m.enums ++ enums⟩ (parts ++ [part]) := by
  have hpart : partFields document part = fields := by
    rw [partFields, hvalue]
    cases value with
    | obj inner => exact Except.ok.inj hfields
    | _ => exact absurd hfields (by simp [fieldsFor])
  have hproperties : properties fields = declared := by rw [properties, hdeclared]
  refine ⟨?_, ?_⟩
  · simp [h.1, hpart, hproperties]
  · have hconstants : partConstants document part = (Json.Fields.get? fields "enum").map fun v =>
        ((valuesOf v).map Json.compact).eraseDups := by
      rw [partConstants, hpart]
    rw [List.filterMap_append, ← h.2, henums, ← hconstants, List.filterMap_cons, List.filterMap_nil]
    cases partConstants document part <;> rfl

section Combined

variable {document : Json} {tidy : Prop} {E : Failure → Prop} {s : Session}
variable (hs : s.Orderly tidy)

include hs

/-- Reading what a reference points at. -/
theorem runs_target {ref : Json} (hfault : ∀ e, s.resolver.lookUp ref = .error e → E e) :
    Runs tidy True E (fun v s' => s' = s ∧ s.resolver.lookUp ref = .ok v) (Session.target ref) s := by
  unfold Runs Work.Leads
  rw [Session.target_run]
  exact runs_orFail hs (fun v hv => ⟨rfl, hv⟩) hfault

/-- Adding what a part stands for. -/
theorem runs_addValue {m : Merged} {part value : Json} {isRequired : Bool} {parts : List Json}
    (hfault : ∀ e, ValueFault value e → E e) (hm : s.resolver.Records document → Holds document m parts)
    (hvalue : s.resolver.Records document → partValue document part = value) :
    Runs tidy True E (fun m' s' => s' = s ∧
      (s.resolver.Records document → Holds document m' (parts ++ [part]))) (do
        let fields ← Session.orFail (fieldsFor "get" value)
        let properties ← Session.orFail (declaredProperties fields)
        let enums ← match Json.Fields.get? fields "enum" with
          | some v => do
            let values ← Session.orFail (elements v)
            Session.orFail (values.forM checkWritable)
            pure [(values.map Json.compact).eraseDups]
          | none => pure []
        return {
          required := m.required ++ (if isRequired then properties.map Prod.fst else [])
          properties := m.properties ++ properties
          enums := m.enums ++ enums }) s := by
  refine runs_orFail_bind hs (fun e he => hfault e (.kind he)) fun fields hfields => ?_
  refine runs_orFail_bind hs (fun e he => hfault e (.properties hfields he)) fun declared hdeclared => ?_
  dsimp only
  cases hget : Json.Fields.get? fields "enum" with
  | some v =>
    refine runs_orFail_bind hs (fun e he => hfault e (.constants hfields hget he))
      fun values hvalues => ?_
    refine runs_orFail_bind hs (fun e he => hfault e (.digits hfields hget hvalues he)) fun _ _ => ?_
    refine runs_pure hs ⟨rfl, fun hrecords => ?_⟩
    refine (hm hrecords).add (hvalue hrecords) hfields hdeclared ?_
    rw [hget, Option.map_some, valuesOf_of_elements hvalues]
    rfl
  | none =>
    refine runs_pure hs ⟨rfl, fun hrecords => ?_⟩
    exact (hm hrecords).add (hvalue hrecords) hfields hdeclared (by rw [hget]; rfl)

theorem runs_addPart {m : Merged} {part : Json} {isRequired : Bool} {parts : List Json}
    (hfault : ∀ e, PartFault s.resolver part e → E e)
    (hm : s.resolver.Records document → Holds document m parts) :
    Runs tidy True E (fun m' s' => s' = s ∧
      (s.resolver.Records document → Holds document m' (parts ++ [part])))
      (addPart m part isRequired) s := by
  refine runs_orFail_bind hs (fun e he => hfault e (.search he)) fun refers hrefers => ?_
  dsimp only
  cases refers with
  | true =>
    rw [if_pos rfl]
    refine runs_orFail_bind hs (fun e he => hfault e (.field hrefers he)) fun ref href => ?_
    refine (runs_target hs fun e he => hfault e (.target href he)).bind id fun value s₁ _ hvalue => ?_
    obtain ⟨rfl, hvalue⟩ := hvalue
    refine runs_addValue hs (fun e he => hfault e (.value href hvalue he)) hm fun hrecords => ?_
    obtain ⟨r, rfl, hfound⟩ := Resolver.lookUp_eq_ok hvalue
    cases part with
    | obj inner =>
      have hhas : Json.Fields.has inner "$ref" = true := Except.ok.inj hrefers
      have hkeyword : keyword inner "$ref" = .str r := Except.ok.inj href
      rw [partValue, if_pos hhas, referenceTarget, hkeyword]
      exact congrArg (·.getD .null) (hrecords.find? hfound)
    | _ => exact absurd href (by simp [fieldOf])
  | false =>
    rw [if_neg (by simp)]
    refine runs_addValue hs (fun e he => hfault e (.plain hrefers he)) hm fun _ => ?_
    cases part with
    | obj inner =>
      have hhas : Json.Fields.has inner "$ref" = false := Except.ok.inj hrefers
      rw [partValue, if_neg (by simp [hhas])]
    | _ => rfl

/-- Work that adds parts and changes nothing. -/
theorem runs_addParts {m : Merged} {more parts : List Json} {isRequired : Bool}
    (hfault : ∀ part ∈ more, ∀ e, PartFault s.resolver part e → E e)
    (hm : s.resolver.Records document → Holds document m parts) :
    Runs tidy True E (fun m' s' => s' = s ∧
      (s.resolver.Records document → Holds document m' (parts ++ more)))
      (more.foldlM (fun m part => addPart m part isRequired) m) s := by
  induction more generalizing m parts with
  | nil => exact runs_pure hs ⟨rfl, by simpa using hm⟩
  | cons part rest ih =>
    rw [List.foldlM_cons]
    refine (runs_addPart hs (hfault part (by simp)) hm).bind id fun m' s₁ _ hm' => ?_
    obtain ⟨rfl, hm'⟩ := hm'
    simpa using ih (fun other hother => hfault other (List.mem_cons_of_mem _ hother)) hm'

theorem runs_addBranch {m : Merged} {branch : Json} {parts : List Json}
    (hfault : ∀ e, BranchFault s.resolver branch e → E e)
    (hm : s.resolver.Records document → Holds document m parts) :
    Runs tidy True E (fun m' s' => s' = s ∧
      (s.resolver.Records document → Holds document m' (parts ++ branchParts branch)))
      (addBranch m branch) s := by
  refine runs_orFail_bind hs (fun e he => hfault e (.search he)) fun chooses hchooses => ?_
  cases chooses with
  | true =>
    rw [if_pos rfl]
    refine runs_orFail_bind hs (fun e he => hfault e (.field hchooses he)) fun v hv => ?_
    refine runs_orFail_bind hs (fun e he => hfault e (.parts hchooses hv he)) fun more hmore => ?_
    have hparts : branchParts branch = more := by
      cases branch with
      | obj inner =>
        have hhas : Json.Fields.has inner "anyOf" = true := Except.ok.inj hchooses
        have hkeyword : keyword inner "anyOf" = v := Except.ok.inj hv
        rw [branchParts, if_pos hhas, hkeyword, valuesOf_of_elements hmore]
      | _ => exact absurd hv (by simp [fieldOf])
    rw [hparts]
    exact runs_addParts hs (fun part hpart e he => hfault e (.part (hparts ▸ hpart) he)) hm
  | false =>
    rw [if_neg (by simp)]
    have hparts : branchParts branch = [branch] := by
      cases branch with
      | obj inner =>
        have hhas : Json.Fields.has inner "anyOf" = false := Except.ok.inj hchooses
        rw [branchParts, if_neg (by simp [hhas])]
      | _ => rfl
    rw [hparts]
    exact runs_addPart hs (fun e he => hfault e (.part (hparts ▸ List.mem_singleton.2 rfl) he)) hm

/-- What all branches of a combined schema add up to. -/
theorem runs_addBranches {m : Merged} {branches parts : List Json}
    (hfault : ∀ branch ∈ branches, ∀ e, BranchFault s.resolver branch e → E e)
    (hm : s.resolver.Records document → Holds document m parts) :
    Runs tidy True E (fun m' s' => s' = s ∧
      (s.resolver.Records document → Holds document m' (parts ++ branches.flatMap branchParts)))
      (branches.foldlM addBranch m) s := by
  induction branches generalizing m parts with
  | nil => exact runs_pure hs ⟨rfl, by simpa using hm⟩
  | cons branch rest ih =>
    rw [List.foldlM_cons]
    refine (runs_addBranch hs (hfault branch (by simp)) hm).bind id fun m' s₁ _ hm' => ?_
    obtain ⟨rfl, hm'⟩ := hm'
    simpa using ih (fun other hother => hfault other (List.mem_cons_of_mem _ hother)) hm'

theorem runs_visitAllOf {visit : Visit} {options : Options} {fields : Json.Fields} {hint : String}
    (hE : ∀ e, Fault options s.resolver (.obj fields) e → E e)
    (hvisit : Serves document tidy E visit (.obj fields) s) (hshape : shape fields = .allOf) :
    Runs tidy (hint ≠ "") E (Visited document (.obj fields) hint s)
      (visitAllOf visit options ⟨fields, hint, ruleNameFor hint⟩) s := by
  refine runs_orFail_bind hs (fun e he => hE e (.branches hshape he)) fun branches hbranches => ?_
  have hstart : s.resolver.Records document → Holds document ⟨[], [], []⟩ [] := fun _ => ⟨rfl, rfl⟩
  have hvalues : valuesOf (keyword fields "allOf") = branches := valuesOf_of_elements hbranches
  refine (runs_addBranches hs (fun branch hbranch e he =>
    hE e (.branch hshape (hvalues ▸ hbranch) he)) hstart).bind (fun _ => trivial) fun m s₁ _ hm => ?_
  obtain ⟨rfl, hm⟩ := hm
  have hparts : branches.flatMap branchParts = partsOf fields := by
    rw [partsOf, ← valuesOf_of_elements hbranches]
    rfl
  rw [List.nil_append, hparts] at hm
  by_cases hcommon : (commonConstants m.enums).isEmpty = true
  · rw [if_pos hcommon]
    have hproperties : s₁.resolver.Records document →
        combinedProperties document fields = m.properties := by
      intro hrecords
      obtain ⟨hprops, henums⟩ := hm hrecords
      rw [combinedProperties, sharedConstants, ← henums, if_pos hcommon, hprops]
    refine (runs_objectBody hvisit (by simp [hshape]) hE hs fun hrecords => ⟨fun x hx => ?_, ?_⟩).bind
      (fun hne hempty => absurd hempty hne) fun body s₂ hadvances hbody => ?_
    · rw [inside, hshape]
      dsimp only
      rw [hproperties hrecords]
      exact List.mem_map_of_mem hx
    · intro inner hnull
      exact absurd hnull (by simp)
    · refine runs_finish hadvances (fun _ hrecords hkeys _ => ?_) fun _ => hbody
      rwa [declaredKeys, hshape, hproperties hrecords] at hkeys
  · rw [if_neg hcommon]
    refine runs_finish (.refl hs) (fun _ _ _ => trivial) fun _ => ?_
    refine isText_choiceOf (fun literal hliteral => ?_) (promises_space hs)
    obtain ⟨text, -, rfl⟩ := List.mem_map.1 hliteral
    exact isText_literalText _

end Combined

end Schema

end SchemaGrammar
