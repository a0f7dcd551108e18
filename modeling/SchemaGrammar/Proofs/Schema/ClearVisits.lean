import SchemaGrammar.Proofs.Exclusions
import SchemaGrammar.Proofs.Schema.Clear
import SchemaGrammar.Proofs.Schema.Calls

set_option autoImplicit false

/-! # Compiling clear schemas

Where all schemas that are reached are clear, compiling keeps a session legible to any depth
(`clears_visit`). A reference has the rule of its target or one that is still claimed for it; a claim
is taken on trust and made good when the target has been compiled. -/

namespace SchemaGrammar

open Grammar (IsReadable IsLegibleRow IsSolid ReadsRow)
open Json (Fields)
open RuleTable (HasPlainDigits IsLegibleBody IsSolidBody Requestable escapeName)
open Session (Legible Builds Makes MakesRule Runs makes_pure makes_throw makes_orFail_bind makes_mapM
  makes_addRule makes_finish makes_addNamed)

/-! ## Work on the table -/

namespace Session

variable {α β : Type} {document : Json} {firm : Prop} {s s' : Session} {own slot : String}

theorem onTable_bind (x : TableM α) (f : α → TableM β) :
    onTable (x >>= f) = onTable x >>= fun a => onTable (f a) := by
  funext s
  change onTable (EStateM.bind x f) s = EStateM.bind (onTable x) (fun a => onTable (f a)) s
  simp only [onTable, EStateM.bind]
  cases x s.table <;> rfl

/-- A built-in rule that is asked for by its own name has it. -/
theorem Legible.slot_eq (h : s.Legible document firm) (hrun : addNamed own own s = .ok slot s') :
    slot = own := by
  obtain ⟨t, hwork, -⟩ := onTable_eq_ok.1 hrun
  obtain ⟨rule, hrule, hadd⟩ := RuleTable.addNamed_eq_ok hwork
  exact (RuleTable.addBuiltinFrom_slot hadd).symm.trans (h.orderly.table.coherent.slot_eq hrule)

end Session

namespace Schema

/-- A way to compile schemas that keeps sessions legible wherever it is entered from a document. -/
structure Clears (document : Json) (firm : Prop) (visit : Visit) : Prop where
  runs : ∀ S hint s, s.Orderly False →
    Runs False (hint ≠ "") (fun e => e.IsOfSchema ∨ e = .endless) (Visited document S hint s)
      (visit S hint) s
  makes : ∀ S hint s, s.Legible document firm → Reaches document document S →
    HasPlainDigits hint → MakesRule document firm (visit S hint) s

/-! ## Entries of objects -/

section Entries

variable {document : Json} {firm : Prop} {s : Session} {name : String} {entries : List Entry}

/-- What is needed of entries, so that the rules they are in can be read. -/
def AreLegible (entries : List Entry) : Prop :=
  ∀ entry ∈ entries, IsReadable entry.pair ∧ HasPlainDigits entry.key

variable (hname : HasPlainDigits name)

include hname

theorem makes_entriesFrom (hs : s.Legible document firm) (present : Bool)
    (hentries : AreLegible entries) :
    Makes document firm (fun text _ => IsLegibleRow text) (entriesFrom name present entries) s := by
  induction entries generalizing s present with
  | nil =>
    exact makes_pure hs isLegibleRow_empty
  | cons entry rest ih =>
    rw [entriesFrom_cons]
    obtain ⟨⟨hpair, hkey⟩, hrest⟩ := List.forall_mem_cons.1 hentries
    have hrow : IsLegibleRow (entryText present entry) :=
      (readsRow_entry readsItem_space present (readsItem_readable (L := 1) hpair)).isLegibleRow
    split_ifs
    · exact makes_pure hs hrow
    · refine (ih hs false hrest).bind fun following s₁ hbuilds hfollowing => ?_
      obtain ⟨hask, hroot⟩ := requestable_key (show "-rest" ∈ _ by simp)
        (fun _ : True => hname) fun _ => hkey
      have hbody := RuleTable.isLegibleBody_of_reads (hfollowing.reads (L := 1)).reads
      refine (makes_addRule hbuilds.legible hask hbody fun _ => .inl hroot).bind
        fun rule s₂ hbuilds' hrule => ?_
      refine makes_pure hbuilds'.legible ?_
      exact ((hrow.reads (L := 1)).beside (readsItem_readable (L := 1) hrule.1).row).isLegibleRow

theorem makes_startings (hs : s.Legible document firm) (hentries : AreLegible entries) :
    Makes document firm (fun texts _ => texts.length = entries.length ∧
      ∀ text ∈ texts, IsLegibleRow text) (startings name entries) s := by
  induction entries generalizing s with
  | nil => exact makes_pure hs (by simp)
  | cons entry rest ih =>
    rw [startings]
    refine (makes_entriesFrom hname hs true hentries).bind fun here s₁ hbuilds hhere => ?_
    refine (ih hbuilds.legible (List.forall_mem_cons.1 hentries).2).bind
      fun others s₂ hbuilds' hothers => ?_
    obtain ⟨hlength, hrows⟩ := hothers
    exact makes_pure hbuilds'.legible ⟨by simp [hlength], List.forall_mem_cons.2 ⟨hhere, hrows⟩⟩

theorem makes_optionalPart (hs : s.Legible document firm) (hasRequired : Bool)
    (hentries : AreLegible entries) :
    Makes document firm (fun text _ => IsLegibleRow text ∧ ∀ front, Grammar.Apart front text.toList)
      (optionalPart name hasRequired entries) s := by
  unfold optionalPart
  by_cases hempty : entries = []
  · rw [if_pos (by simp [hempty])]
    exact makes_pure hs ⟨isLegibleRow_empty, fun _ => Grammar.apart_of_head (by simp)⟩
  · rw [if_neg (by simpa using hempty)]
    refine (makes_startings hname hs hentries).bind fun texts s₁ hbuilds htexts => ?_
    obtain ⟨hlength, hrows⟩ := htexts
    have hne : texts ≠ [] := by
      rintro rfl
      exact hempty (List.length_eq_zero_iff.1 hlength.symm)
    have hreads : List.Forall₂ (Grammar.Reads IsReadable fun _ => False) texts
        (texts.map fun _ => 1) := by
      rw [List.forall₂_map_right_iff, List.forall₂_same]
      exact fun text htext => ((hrows text htext).reads).reads
    exact makes_pure hbuilds.legible ⟨(readsRow_optional readsItem_space _ hne hreads).isLegibleRow,
      fun _ => Grammar.apart_of_head (by simp; decide)⟩

/-! ## Additional pairs -/

omit hname in
/-- The expression for all keys but the declared ones. -/
theorem makes_bodyFor (hs : s.Legible document firm) (keys : List String) :
    Makes document firm (fun body _ => IsLegibleBody body)
      (Session.onTable (Exclusion.bodyFor (keys.map Json.str))) s := by
  unfold Exclusion.bodyFor
  rw [Session.onTable_bind]
  intro body s' hrun
  obtain ⟨char, s₁, hchar, hlast⟩ := Work.bind_eq_ok.1 hrun
  obtain rfl := hs.slot_eq hchar
  have hroot : escapeName "char" ≠ "root" := by decide
  obtain ⟨hbuilds, -⟩ := makes_addNamed hs (.inl rfl) (fun _ => .inl hroot) _ _ hchar
  obtain ⟨t, hpure, rfl⟩ := Session.onTable_eq_ok.1 hlast
  obtain ⟨rfl, rfl⟩ := Work.pure_eq_ok.1 hpure
  exact ⟨hbuilds, isLegibleBody_exclusion keys⟩

theorem makes_additionalPair (hs : s.Legible document firm) {keys : List String} {value : String}
    (hvalue : IsReadable value) : Makes document firm (fun entries _ => AreLegible entries)
      (additionalPair name keys value) s := by
  have hkey : Makes document firm (fun rule _ => IsReadable rule) (additionalKey name keys) s := by
    unfold additionalKey
    split_ifs
    · exact (makes_builtin hs (by decide)).mono fun _ _ _ h => h.readable
    · refine (makes_bodyFor hs keys).bind fun body s₁ hbuilds hbody => ?_
      obtain ⟨hask, hroot⟩ := requestable_additional (show "-k" ∈ _ by simp)
        fun _ : True => hname
      exact (makes_addRule hbuilds.legible hask hbody fun _ => .inl hroot).mono fun _ _ _ h => h.1
  refine hkey.bind fun key s₁ hbuilds hkey => ?_
  obtain ⟨hask, hroot⟩ := requestable_additional (show "-kv" ∈ _ by simp)
    fun _ : True => hname
  have hrow := readsRow_additional readsItem_space (readsItem_readable (L := 1) hkey)
    (readsItem_readable (L := 1) hvalue)
  refine (makes_addRule hbuilds.legible hask (RuleTable.isLegibleBody_of_reads hrow.reads)
    fun _ => .inl hroot).bind fun pair s₂ hbuilds' hpair => ?_
  refine makes_pure hbuilds'.legible fun entry hentry => ?_
  obtain rfl := List.mem_singleton.1 hentry
  have hstar : HasPlainDigits "*" := by decide
  exact ⟨hpair.1, hstar⟩

end Entries

section Nested

variable {document : Json} {firm : Prop} {visit : Visit} {s : Session} {fields : Fields}
variable {hint : String} (hvisit : Clears document firm visit) (hs : s.Legible document firm)
variable (hhint : HasPlainDigits hint) (hreach : Reaches document document (.obj fields))

/-! ## Alternatives and lists -/

section Lists

include hvisit hs hreach

/-- Schemas one after the other, with hints that depend on their places. -/
theorem makes_zipIdx {schemas : List Json} {hintOf : Nat → String}
    (hinside : ∀ S ∈ schemas, S ∈ inside document (.obj fields))
    (hdigits : ∀ i, HasPlainDigits (hintOf i)) :
    Makes document firm
      (fun names s' => names.length = schemas.length ∧ ∀ name ∈ names, s'.IsRule firm name)
      (schemas.zipIdx.mapM fun x => visit x.1 (hintOf x.2)) s := by
  have hall : Makes document firm
      (fun names s' => names.length = schemas.zipIdx.length ∧ ∀ name ∈ names, s'.IsRule firm name)
      (schemas.zipIdx.mapM fun x => visit x.1 (hintOf x.2)) s :=
    makes_mapM hs fun x hx s₁ hs₁ =>
      hvisit.makes _ _ s₁ hs₁ (hreach.tail (hinside _ (List.fst_mem_of_mem_zipIdx hx))) (hdigits _)
  rwa [List.length_zipIdx] at hall

include hhint

theorem makes_alternatives {schemas : List Json}
    (hinside : ∀ S ∈ schemas, S ∈ inside document (.obj fields)) :
    Makes document firm
      (fun text s' => IsLegibleBody text ∧ (firm → schemas ≠ [] → IsSolidBody s'.IsSolid text))
      (alternatives visit hint schemas) s := by
  have hfront : HasPlainDigits (if hint.isEmpty then "alternative" else hint) := by
    split_ifs
    · decide
    · exact hhint
  have hdigits (i : Nat) :
      HasPlainDigits ((if hint.isEmpty then "alternative" else hint) ++ "-" ++ natText i) :=
    (hfront.append (by decide)).append (hasPlainDigits_natText i)
  refine (makes_zipIdx hvisit hs hreach hinside hdigits).bind fun names s₁ hbuilds hnames => ?_
  obtain ⟨hlength, hrules⟩ := hnames
  refine makes_pure hbuilds.legible
    ⟨isLegibleBody_names fun name hname => (hrules name hname).readable, fun hfirm hne => ?_⟩
  refine RuleTable.isSolidBody_of_isSolid (Grammar.isSolid_choices ?_ fun name hname => ?_)
  · rintro rfl
    exact hne (List.length_eq_zero_iff.1 hlength.symm)
  · have hrule := hrules name hname
    exact (Grammar.isSolidItem_name hrule.readable (hrule.isUsable.solid hfirm)).row.isSolid

/-- The rule of a schema that chooses between those inside. -/
theorem makes_choice {schemas : List Json} (hinside : inside document (.obj fields) = schemas)
    (hsome : firm → schemas ≠ []) :
    MakesRule document firm
      (alternatives visit hint schemas >>= Session.addRule (ruleNameFor hint)) s := by
  have hall : ∀ S ∈ schemas, S ∈ inside document (.obj fields) := by
    intro S hS
    rwa [hinside]
  refine (makes_alternatives hvisit hs hhint hreach hall).bind fun body _ hbuilds hbody => ?_
  exact makes_finish hbuilds.legible hhint hbody.1 fun hfirm => hbody.2 hfirm (hsome hfirm)

theorem makes_visitUnion (hshape : shape fields = .union) (hchoices : firm → HasChoices fields) :
    MakesRule document firm (visitUnion visit ⟨fields, hint, ruleNameFor hint⟩) s := by
  refine makes_orFail_bind fun schemas hschemas => ?_
  have hvalues : choices fields = schemas := valuesOf_of_elements hschemas
  refine makes_choice hvisit hs hhint hreach (by rw [inside, hshape, ← hvalues]) fun hfirm => ?_
  have hsome := hchoices hfirm
  rwa [HasChoices, hshape, hvalues] at hsome

theorem makes_visitTypeUnion (hshape : shape fields = .typeUnion)
    (hchoices : firm → HasChoices fields) :
    MakesRule document firm (visitTypeUnion visit ⟨fields, hint, ruleNameFor hint⟩) s := by
  refine makes_orFail_bind fun types htypes => ?_
  have hvalues : typeChoices fields = types.map fun t => Json.obj (Fields.set fields "type" t) :=
    congrArg _ (valuesOf_of_elements htypes)
  refine makes_choice hvisit hs hhint hreach (by rw [inside, hshape, ← hvalues]) fun hfirm => ?_
  have hsome := hchoices hfirm
  rwa [HasChoices, hshape, hvalues] at hsome

theorem makes_visitTuple (hshape : shape fields = .tuple) :
    MakesRule document firm (visitTuple visit ⟨fields, hint, ruleNameFor hint⟩) s := by
  have hinside : inside document (.obj fields) = tupleItems fields := by rw [inside, hshape]
  have hdigits (i : Nat) : HasPlainDigits (subName hint ("tuple-" ++ natText i)) :=
    hasPlainDigits_subName hhint (HasPlainDigits.append (by decide) (hasPlainDigits_natText i))
  refine (makes_zipIdx hvisit hs hreach (fun S hS => hinside ▸ hS) hdigits).bind
    fun names s₁ hbuilds hnames => ?_
  have hrules := forall₂_readsRow fun name hname => (hnames.2 name hname).readable
  have hsep : " " ++ (Grammar.literalText "," ++ " " ++ "space") ++ " " = " \",\" space " := by
    decide
  have hitems := Grammar.readsRow_separated (readsRow_mark readsItem_space ",") hrules
  rw [hsep] at hitems
  exact makes_solid hbuilds.legible hhint (isSolid_bracketed hitems.isLegibleRow)

omit hvisit hreach in
/-- A list whose items have a rule. -/
theorem makes_list {rule : String} (hclear : IsClear document fields) (hrule : s.IsRule firm rule) :
    MakesRule document firm (do
      let items ← counted ⟨fields, hint, ruleNameFor hint⟩ "minItems" "maxItems"
        (Grammar.separatedRepetition rule "\",\" space")
      Session.addRule (ruleNameFor hint) ("\"[\" space " ++ items ++ " \"]\" space")) s := by
  refine (makes_counted hs (hclear.counts "minItems" (by simp))
    (hclear.counts "maxItems" (by simp))).bind fun items s₁ hbuilds hitems => ?_
  obtain ⟨rfl, low, high, hcounts⟩ := hitems
  obtain ⟨body, hfind, -⟩ := hrule.stored
  have hstorable := hs.orderly.table.coherent.storable rule (RuleTable.has_of_find? hfind)
  have hlast : ∀ c ∈ rule.toList.getLast?, Text.isBlank c = false := fun c hc =>
    RuleTable.isBlank_of_keepsInName (hstorable.2 c (List.mem_of_getLast? hc))
  have hrow := (Grammar.composes_reads IsReadable fun _ => False).row_separatedRepetition false
    (readsItem_readable (L := 1) hrule.readable) hlast (readsRow_mark readsItem_space ",") hcounts
  exact makes_solid hs hhint (isSolid_bracketed hrow.isLegibleRow)

theorem makes_visitArray (hshape : shape fields = .array) (hclear : IsClear document fields) :
    MakesRule document firm (visitArray visit ⟨fields, hint, ruleNameFor hint⟩) s := by
  have hvalue : MakesRule document firm (Session.addNamed "value" "value") s :=
    makes_builtin hs (by decide)
  unfold visitArray
  dsimp only
  split
  · exact makes_solid hs hhint isSolid_emptyList
  · exact hvalue.bind fun rule s₁ hbuilds hrule => makes_list hbuilds.legible hhint hclear hrule
  · exact hvalue.bind fun rule s₁ hbuilds hrule => makes_list hbuilds.legible hhint hclear hrule
  · rename_i hfalse htrue hempty
    have hinside : keyword fields "items" ∈ inside document (.obj fields) := by
      rw [inside, hshape]
      dsimp only
      unfold itemSchemas
      split
      · rename_i b hb
        cases b with
        | false => exact absurd hb hfalse
        | true => exact absurd hb htrue
      · rename_i hnil
        exact absurd hnil hempty
      · exact List.mem_singleton.2 rfl
    have hdigits : HasPlainDigits (subName hint "item") := hasPlainDigits_subName hhint (by decide)
    exact (hvisit.makes _ _ s hs (hreach.tail hinside) hdigits).bind fun rule s₁ hbuilds hrule =>
      makes_list hbuilds.legible hhint hclear hrule

end Lists

/-! ## Objects -/

section Objects

include hvisit hhint

theorem makes_pairRule {key : String} {S : Json} (hs : s.Legible document firm)
    (hkey : HasPlainDigits key) (hS : Reaches document document S) :
    Makes document firm (fun rule _ => IsReadable rule) (pairRule visit hint (key, S)) s := by
  refine (hvisit.makes S _ s hs hS (hasPlainDigits_subName hhint hkey)).bind
    fun value s₁ hbuilds hvalue => ?_
  obtain ⟨hask, hroot⟩ := requestable_key (show "-kv" ∈ _ by simp) (fun _ : True => hhint)
    fun _ => hkey
  have hrow := readsRow_pair readsItem_space key (readsItem_readable (L := 1) hvalue.readable)
  exact (makes_addRule hbuilds.legible hask (RuleTable.isLegibleBody_of_reads hrow.reads)
    fun _ => .inl hroot).mono fun _ _ _ h => h.1

theorem makes_pairRules {properties : List (String × Json)} {done : List (String × String)}
    {keys : List String} (hs : s.Legible document firm)
    (hproperties : ∀ x ∈ properties, HasPlainDigits x.1 ∧ Reaches document document x.2)
    (hdone : ∀ key ∈ keys, IsReadable ((done.lookup key).getD "")) :
    Makes document firm (fun pairs _ =>
      ∀ key ∈ keys ++ properties.map Prod.fst, IsReadable ((pairs.lookup key).getD ""))
      (pairRules visit hint properties done) s := by
  induction properties generalizing done keys s with
  | nil => exact makes_pure hs (by simpa using hdone)
  | cons x rest ih =>
    rw [pairRules]
    obtain ⟨⟨hkey, hreach⟩, hrest⟩ := List.forall_mem_cons.1 hproperties
    refine (makes_pairRule hvisit hhint hs hkey hreach).bind fun rule s₁ hbuilds hrule => ?_
    have hmore : ∀ key ∈ keys ++ [x.1],
        IsReadable (((Assoc.set done x.1 rule).lookup key).getD "") := by
      intro key hmem
      rw [Assoc.lookup_set]
      split_ifs with heq
      · exact hrule
      · have hold : key ∈ keys :=
          (List.mem_append.1 hmem).resolve_right fun hnew => heq (List.mem_singleton.1 hnew)
        exact hdone key hold
    exact (ih hbuilds.legible hrest hmore).mono fun pairs s₂ _ hpairs => by simpa using hpairs

theorem makes_additionalEntry {keys : List String} {allowed : Json} (hs : s.Legible document firm)
    (hallowed : ∀ inner, allowed = .obj inner → inner ≠ [] → Reaches document document allowed) :
    Makes document firm (fun entries _ => AreLegible entries)
      (additionalEntry visit hint keys allowed) s := by
  have hvalue : MakesRule document firm (Session.addNamed "value" "value") s :=
    makes_builtin hs (by decide)
  rw [additionalEntry_eq]
  split
  · exact hvalue.bind fun _ _ hbuilds hrule => makes_additionalPair hhint hbuilds.legible hrule.readable
  · exact hvalue.bind fun _ _ hbuilds hrule => makes_additionalPair hhint hbuilds.legible hrule.readable
  · rename_i inner hinner
    have hbase : HasPlainDigits (subName hint "additional" ++ "-value") :=
      (hasPlainDigits_subName hhint (by decide)).append (by decide)
    exact (hvisit.makes _ _ s hs (hallowed inner rfl hinner) hbase).bind fun _ _ hbuilds hrule =>
      makes_additionalPair hhint hbuilds.legible hrule.readable
  · exact makes_pure hs (by simp [AreLegible])

theorem makes_objectBody {options : Options} {properties : List (String × Json)}
    {required : List String} {additional : Json} (hs : s.Legible document firm)
    (hproperties : ∀ x ∈ properties, HasPlainDigits x.1 ∧ Reaches document document x.2)
    (hadditional : ∀ inner, additional = .obj inner → inner ≠ [] →
      Reaches document document additional) :
    Makes document firm (fun text s' => IsSolid s'.IsSolid text)
      (objectBody visit options hint properties required additional) s := by
  refine makes_orFail_bind fun keys hkeys => ?_
  have hdeclared {key : String} (hkey : key ∈ keys) : key ∈ properties.map Prod.fst :=
    Assoc.mem_of_mem_ofPairs ((Options.perm_sortProperties hkeys).mem_iff.1 hkey)
  have hnone : ∀ key ∈ ([] : List String),
      IsReadable ((([] : List (String × String)).lookup key).getD "") := by
    simp
  refine (makes_pairRules hvisit hhint hs hproperties hnone).bind fun pairs s₁ hbuilds hpairs => ?_
  have hpair {key : String} (hkey : key ∈ keys) : IsReadable ((pairs.lookup key).getD "") :=
    hpairs key (hdeclared hkey)
  refine (makes_additionalEntry hvisit hhint hbuilds.legible hadditional).bind
    fun extra s₂ hbuilds' hextra => ?_
  have hentries : AreLegible ((keys.filter fun key => !required.contains key).map
      (fun key => (⟨key, (pairs.lookup key).getD "", false⟩ : Entry)) ++ extra) := by
    intro entry hentry
    rcases List.mem_append.1 hentry with hentry | hentry
    · obtain ⟨key, hkey, rfl⟩ := List.mem_map.1 hentry
      have hmem := List.mem_of_mem_filter hkey
      obtain ⟨x, hx, rfl⟩ := List.mem_map.1 (hdeclared hmem)
      exact ⟨hpair hmem, (hproperties x hx).1⟩
    · exact hextra entry hentry
  refine (makes_optionalPart hhint hbuilds'.legible _ hentries).bind fun rest s₃ hbuilds'' hrest => ?_
  refine makes_pure hbuilds''.legible (isSolid_object (fun rule hrule => ?_) hrest.1 hrest.2)
  obtain ⟨key, hkey, rfl⟩ := List.mem_map.1 hrule
  exact hpair (List.mem_of_mem_filter hkey)

include hs hreach

theorem makes_visitObject {options : Options} (hshape : shape fields = .object)
    (hclear : IsClear document fields) :
    MakesRule document firm (visitObject visit options ⟨fields, hint, ruleNameFor hint⟩) s := by
  refine makes_orFail_bind fun declared hdeclared => makes_orFail_bind fun required _ => ?_
  have hproperties : properties fields = declared := by rw [properties, hdeclared]
  have hinside : inside document (.obj fields) =
      declared.map Prod.snd ++ additionalSchemas fields := by rw [inside, hshape, ← hproperties]
  have hkeys : declaredKeys document (.obj fields) = declared.map Prod.fst := by
    rw [declaredKeys, hshape, ← hproperties]
  refine (makes_objectBody hvisit hhint hs (fun x hx => ⟨?_, ?_⟩) fun inner hinner hne => ?_).bind
    fun body s₁ hbuilds hbody => makes_solid hbuilds.legible hhint hbody
  · exact hclear.keys x.1 (hkeys ▸ List.mem_map_of_mem hx)
  · refine hreach.tail ?_
    rw [hinside]
    exact List.mem_append_left _ (List.mem_map_of_mem hx)
  · refine hreach.tail ?_
    have hkeyword : keyword fields "additionalProperties" = .obj inner := hinner
    rw [hinside, hinner, additionalSchemas, hkeyword]
    refine List.mem_append_right _ ?_
    cases inner with
    | nil => exact absurd rfl hne
    | cons _ _ => exact List.mem_singleton.2 rfl

/-! ## Combined schemas -/

omit hvisit hs hhint hreach in
/-- The constants that parts share are texts of values. -/
theorem not_areBlank_of_mem_shared {parts : List Json} {text : String}
    (h : text ∈ commonConstants (parts.filterMap (partConstants document))) :
    ¬ Standard.AreBlank text.toList := by
  cases hlists : parts.filterMap (partConstants document) with
  | nil =>
    rw [hlists] at h
    exact absurd h (by simp [commonConstants])
  | cons first others =>
    rw [hlists] at h
    have hmem : first ∈ parts.filterMap (partConstants document) := by simp [hlists]
    obtain ⟨part, -, hpart⟩ := List.mem_filterMap.1 hmem
    obtain ⟨v, -, rfl⟩ := Option.map_eq_some_iff.1 hpart
    have htext := List.mem_eraseDups.1 (List.mem_of_mem_filter h)
    obtain ⟨w, -, rfl⟩ := List.mem_map.1 htext
    exact Json.not_areBlank_compact w

theorem makes_visitAllOf {options : Options} (hshape : shape fields = .allOf)
    (hclear : IsClear document fields) :
    MakesRule document firm (visitAllOf visit options ⟨fields, hint, ruleNameFor hint⟩) s := by
  refine makes_orFail_bind fun branches hbranches => ?_
  have hparts : branches.flatMap branchParts = partsOf fields := by
    rw [partsOf, ← valuesOf_of_elements hbranches]
    rfl
  have hmerged : Makes document firm (fun m s' => s' = s ∧ Holds document m (partsOf fields))
      (branches.foldlM addBranch ⟨[], [], []⟩) s := by
    intro m s' hrun
    have hstart : s.resolver.Records document → Holds document ⟨[], [], []⟩ [] :=
      fun _ => ⟨rfl, rfl⟩
    have hruns := runs_addBranches (E := fun _ => True) hs.orderly
      (fun branch (_ : branch ∈ branches) _ _ => trivial) hstart
    obtain ⟨-, rfl, hm⟩ := (Work.leads_iff.1 hruns).1 m s' hrun
    rw [List.nil_append, hparts] at hm
    exact ⟨.refl hs, rfl, hm hs.records⟩
  refine hmerged.bind fun m s₁ _ hm => ?_
  obtain ⟨rfl, hproperties, henums⟩ := hm
  dsimp only
  split_ifs with hcommon
  · have hcombined : combinedProperties document fields = m.properties := by
      rw [combinedProperties, sharedConstants, ← henums, if_pos hcommon, hproperties]
    refine (makes_objectBody hvisit hhint hs (fun x hx => ⟨?_, ?_⟩) fun inner hinner => ?_).bind
      fun body s₁ hbuilds hbody => makes_solid hbuilds.legible hhint hbody
    · refine hclear.keys x.1 ?_
      rw [declaredKeys, hshape]
      dsimp only
      rw [hcombined]
      exact List.mem_map_of_mem hx
    · refine hreach.tail ?_
      rw [inside, hshape]
      dsimp only
      rw [hcombined]
      exact List.mem_map_of_mem hx
    · exact absurd hinner (by simp)
  · have hsorted := List.mergeSort_perm (commonConstants m.enums) Assoc.nameLe
    refine makes_solid hs hhint (isSolid_choiceOf ?_ fun text htext => ?_)
    · intro hnil
      rw [Assoc.sortNames] at hnil
      rw [hnil] at hsorted
      exact hcommon (by simp [hsorted.nil_eq.symm])
    · have hmem := hsorted.mem_iff.1 htext
      rw [henums] at hmem
      exact not_areBlank_of_mem_shared hmem

end Objects

/-! ## References -/

section References

include hvisit hs hreach

/-- A reference has a rule, or its target is compiled and gives it one. -/
theorem builds_leadsTo {ref rule : String} {s₁ : Session} (hshape : shape fields = .ref)
    (hkeyword : keyword fields "$ref" = .str ref) (hleads : LeadsTo visit ref rule s s₁) :
    Builds document firm s s₁ ∧ s₁.IsUsable firm rule := by
  rcases hleads with ⟨hknown, rfl⟩ | ⟨hnew, target, hfind, hrule⟩
  · exact ⟨.refl hs, hs.names ref rule hknown⟩
  · obtain ⟨s₂, hfound, rfl⟩ := referenceRule_eq_ok hrule
    obtain ⟨hne, hdigits⟩ := claimedName_spec s ref
    have htarget : target ∈ inside document (.obj fields) := by
      rw [inside, hshape]
      dsimp only
      rw [referenceTarget, hkeyword]
      exact Option.mem_toList.2 (hs.records.find? hfind)
    have hclaim := hs.claim hnew
    obtain ⟨hbuilds, hrule⟩ := hvisit.makes target _ _ hclaim (hreach.tail htarget) hdigits _ _ hfound
    obtain ⟨hadvances, hvisited⟩ :=
      (Work.leads_iff.1 (hvisit.runs target _ _ hclaim.orderly)).1 _ _ hfound
    obtain ⟨hsettled, hrule'⟩ :=
      Builds.settle hs hnew hbuilds hrule (hadvances.weaken fun _ => hne) hvisited
    exact ⟨hsettled, hrule'.isUsable⟩

include hhint

theorem makes_visitRef (hshape : shape fields = .ref) :
    MakesRule document firm (visitRef visit ⟨fields, hint, ruleNameFor hint⟩) s := by
  intro name s' hrun
  have hruns : Runs False (hint ≠ "") (fun e => e.IsOfSchema ∨ e = .endless)
      (Visited document (.obj fields) hint s) (visitRef visit ⟨fields, hint, ruleNameFor hint⟩) s :=
    runs_visitRef (fun _ (he : Fault .standard _ _ _) => .inl he.isOfSchema)
      (fun S' hint' s' _ hs' => hvisit.runs S' hint' s' hs') hs.orderly hshape
  obtain ⟨hadvances, -⟩ := (Work.leads_iff.1 hruns).1 name s' hrun
  obtain ⟨ref, rule, s₁, s₂, hkeyword, hleads, hadd, rfl⟩ := visitRef_eq_ok hrun
  obtain ⟨hbuilds, husable⟩ := builds_leadsTo hvisit hs hreach hshape hkeyword hleads
  obtain ⟨hmore, hrule⟩ := makes_alias hbuilds.legible hhint husable name s₂ hadd
  have hlinked := (hbuilds.trans hmore).link (hadvances.weaken False.elim)
  exact ⟨hlinked, hrule.mono (.refl _) (List.suffix_cons _ _)⟩

end References

end Nested

/-! ## Whole visits -/

section Visits

variable {document : Json} {firm : Prop} {options : Options}
variable (hceiling : HasCeiling options)
variable (hclear : ∀ fields, Reaches document document (.obj fields) → IsClear document fields)
variable (hchoices : firm → ∀ fields, Reaches document document (.obj fields) → HasChoices fields)

include hceiling hclear hchoices

/-- **One step of compiling.** Given a way to compile what is inside that keeps sessions legible,
    compiling a schema does, too. -/
theorem makes_visitWith {visit : Visit} (hvisit : Clears document firm visit) {S : Json}
    {hint : String} {s : Session} (hs : s.Legible document firm)
    (hreach : Reaches document document S) (hhint : HasPlainDigits hint) :
    MakesRule document firm (visitWith visit options S hint) s := by
  cases S with
  | obj fields =>
    have hfields := hclear fields hreach
    have hsome : firm → HasChoices fields := fun hfirm => hchoices hfirm fields hreach
    unfold visitWith
    dsimp only
    cases hshape : shape fields with
    | ref => exact makes_visitRef hvisit hs hhint hreach hshape
    | union => exact makes_visitUnion hvisit hs hhint hreach hshape hsome
    | typeUnion => exact makes_visitTypeUnion hvisit hs hhint hreach hshape hsome
    | const => exact makes_visitConst hs hhint
    | enum => exact makes_visitEnum hs hhint hshape hsome
    | object => exact makes_visitObject hvisit hs hhint hreach hshape hfields
    | allOf => exact makes_visitAllOf hvisit hs hhint hreach hshape hfields
    | tuple => exact makes_visitTuple hvisit hs hhint hreach hshape
    | array => exact makes_visitArray hvisit hs hhint hreach hshape hfields
    | pattern => exact makes_visitPattern hs hhint hshape hfields
    | uuid => exact makes_visitUuid hs hshape
    | formatString => exact makes_visitFormatString hs hhint hshape
    | boundedString => exact makes_visitBoundedString hs hhint hfields
    | intRange => exact makes_visitIntRange hs hhint hceiling
    | genericObject => exact makes_visitGenericObject hs hhint
    | primitive => exact makes_visitPrimitive hs hshape
    | unrecognized => exact makes_throw _
  | _ => exact makes_throw _

/-- **Compiling to any depth** keeps sessions legible. -/
theorem clears_visit (depth : Nat) : Clears document firm (visit options depth) := by
  have hruns (depth : Nat) (S : Json) (hint : String) (s : Session) (hs : s.Orderly False) :
      Runs False (hint ≠ "") (fun e => e.IsOfSchema ∨ e = .endless) (Visited document S hint s)
        (visit options depth S hint) s :=
    runs_visit options depth hint hs ⟨False.elim, False.elim⟩
  induction depth with
  | zero => exact ⟨hruns 0, fun _ _ _ _ _ _ => makes_throw _⟩
  | succ depth ih =>
    exact ⟨hruns (depth + 1), fun S hint s hs hreach hhint =>
      makes_visitWith hceiling hclear hchoices ih hs hreach hhint⟩

end Visits

end Schema

end SchemaGrammar
