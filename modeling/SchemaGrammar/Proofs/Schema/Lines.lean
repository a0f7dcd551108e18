import SchemaGrammar.Proofs.Pattern.Lines
import SchemaGrammar.Proofs.RunSort
import SchemaGrammar.Proofs.Schema.Parts
import SchemaGrammar.Proofs.Schema.Requests
import SchemaGrammar.Schema.Visit

set_option autoImplicit false

/-! # Schemas on one line

A session is listable if its table is and the rules of references have names on one line. Compiling
a schema that keeps to a line keeps a session listable, if the document around it keeps to a line,
too (`lists_visit`). There is a lemma for each builder; what is compiled inside is given by the way
to compile it (`Lists`). -/

namespace SchemaGrammar

open Json (Fields keepsLine itemsKeepLine fieldsKeepLine escapesLineEnds copiesOneLine copiedKeywords)
open Text (IsOneLine isOneLine_intercalate isOneLine_natText endsLine)
open Work (Keeps)

/-! ## Parts of values that keep to a line -/

namespace Json

variable {v w : Json} {fields : Fields} {key : String}

theorem keepsLine_of_part (hw : Part w v) (h : v.keepsLine = true) : w.keepsLine = true := by
  induction hw with
  | refl => exact h
  | item hv _ ih => exact ih (itemsKeepLine_iff.1 h _ hv)
  | field hv _ ih => exact ih (fieldsKeepLine_iff.1 h _ hv).2.2

theorem keepsLine_get? (h : fieldsKeepLine fields = true) (hget : Fields.get? fields key = some v) :
    v.keepsLine = true :=
  (fieldsKeepLine_iff.1 h _ (Assoc.mem_of_lookup hget)).2.2

/-- What is copied from a field is on one line. -/
theorem isOneLine_copied (h : fieldsKeepLine fields = true) (hkey : key ∈ copiedKeywords) {s : String}
    (hget : Fields.get? fields key = some (.str s)) : IsOneLine s := by
  have hcopies := (fieldsKeepLine_iff.1 h _ (Assoc.mem_of_lookup hget)).2.1
  simpa [copiesOneLine, hkey] using hcopies

/-- A field from which nothing is copied may be set to another value. -/
theorem keepsLine_set (h : fieldsKeepLine fields = true) (hv : v.keepsLine = true)
    (hkey : escapesLineEnds key = true) (hcopied : key ∉ copiedKeywords) :
    fieldsKeepLine (Fields.set fields key v) = true := by
  refine fieldsKeepLine_iff.2 fun x hx => ?_
  rcases Assoc.mem_of_mem_set hx with hold | rfl
  · exact fieldsKeepLine_iff.1 h x hold
  · refine ⟨hkey, ?_, hv⟩
    cases v with
    | str s => simp [copiesOneLine, hcopied]
    | _ => rfl

end Json

namespace Schema

variable {v w : Json} {fields : Fields} {key : String}

theorem keepsLine_elements {values : List Json} (h : v.keepsLine = true)
    (helements : elements v = .ok values) : ∀ w ∈ values, w.keepsLine = true := by
  cases v with
  | arr items =>
    obtain rfl := Except.ok.inj helements
    exact Json.itemsKeepLine_iff.1 h
  | obj fields =>
    obtain rfl := Except.ok.inj helements
    intro w hw
    obtain ⟨key, hkey, rfl⟩ := List.mem_map.1 hw
    obtain ⟨field, hfield, rfl⟩ := List.mem_map.1 hkey
    exact (Json.fieldsKeepLine_iff.1 h field hfield).1
  | str s =>
    obtain rfl := Except.ok.inj helements
    intro w hw
    obtain ⟨c, hc, rfl⟩ := List.mem_map.1 hw
    have hkept := List.all_eq_true.1 (show s.toList.all _ = true from h) c hc
    simpa [keepsLine, escapesLineEnds, Char.toString] using hkept
  | _ => cases helements

theorem keepsLine_orElse {found : Option Json} (hfound : ∀ v, found = some v → v.keepsLine = true)
    (hw : w.keepsLine = true) : (orElse found w).keepsLine = true := by
  cases found with
  | none => exact hw
  | some v =>
    unfold orElse
    dsimp only
    split_ifs
    · exact hw
    · exact hfound v rfl

theorem keepsLine_declaredProperties {properties : Fields} (h : fieldsKeepLine fields = true)
    (hdeclared : declaredProperties fields = .ok properties) : fieldsKeepLine properties = true := by
  have hvalue : (orElse (Fields.get? fields "properties") (.obj [])).keepsLine = true :=
    keepsLine_orElse (fun v hget => Json.keepsLine_get? h hget) rfl
  unfold declaredProperties at hdeclared
  generalize orElse (Fields.get? fields "properties") (.obj []) = v at hdeclared hvalue
  cases v with
  | obj fields =>
    obtain rfl := Except.ok.inj hdeclared
    exact hvalue
  | _ => cases hdeclared

end Schema

/-! ## Sessions -/

namespace Session

/-- Each body is on one line, and so is the name of each reference's rule. -/
structure IsListable (document : Json) (s : Session) : Prop where
  table : s.table.IsListable
  names : ∀ x ∈ s.ruleNames, IsOneLine x.2
  resolver : s.resolver.Records document

variable {α : Type} {document : Json} {name body : String}

theorem keeps_onTable {Q : α → Prop} {work : TableM α} (h : Keeps RuleTable.IsListable Q work) :
    Keeps (IsListable document) Q (onTable work) := by
  intro s a s' hs hrun
  obtain ⟨t, ht, rfl⟩ := onTable_eq_ok.1 hrun
  obtain ⟨htable, ha⟩ := h s.table a t hs.table ht
  exact ⟨⟨htable, hs.names, hs.resolver⟩, ha⟩

theorem keeps_orFail {Q : α → Prop} {x : Except Failure α} (h : ∀ a, x = .ok a → Q a) :
    Keeps (IsListable document) Q (orFail x) :=
  .ofExcept h

/-- A check of which nothing is needed. -/
theorem keeps_check (x : Except Failure α) : Keeps (IsListable document) (fun _ => True) (orFail x) :=
  keeps_orFail fun _ _ => trivial

theorem keeps_addRule (name : String) (h : IsOneLine body) :
    Keeps (IsListable document) IsOneLine (addRule name body) :=
  keeps_onTable (RuleTable.keeps_addRule name h)

theorem keeps_addNamed (name builtin : String) :
    Keeps (IsListable document) IsOneLine (addNamed name builtin) :=
  keeps_onTable (RuleTable.keeps_addNamed name builtin)

theorem keeps_reserve (name : String) : Keeps (IsListable document) IsOneLine (reserve name) := by
  intro s slot s' hs hrun
  obtain ⟨t, ht, rfl⟩ := reserve_eq_ok.1 hrun
  have hslot := RuleTable.isSlot_reserve s.table name
  have hrules : (s.table.reserve name).2.rules = s.table.rules := rfl
  rw [ht] at hslot hrules
  refine ⟨⟨fun rule hrule => hs.table rule ?_, hs.names, hs.resolver⟩, hslot.isOneLine⟩
  rwa [← hrules]

theorem keeps_release (name : String) :
    Keeps (IsListable document) (fun _ => True) (release name) := by
  intro s u s' hs hrun
  obtain rfl := release_eq_ok.1 hrun
  exact ⟨⟨hs.table, hs.names, hs.resolver⟩, trivial⟩

theorem keeps_nameReference (ref : String) (h : IsOneLine name) :
    Keeps (IsListable document) (fun _ => True) (nameReference ref name) := by
  refine .modify fun s hs => ⟨hs.table, fun x hx => ?_, hs.resolver⟩
  rcases Assoc.mem_of_mem_set hx with hold | rfl
  · exact hs.names x hold
  · exact h

theorem keeps_note (event : Event) : Keeps (IsListable document) (fun _ => True) (note event) :=
  .modify fun _ hs => ⟨hs.table, hs.names, hs.resolver⟩

/-- What a reference points at is a part of the document. -/
theorem keeps_target (hdocument : document.keepsLine = true) (ref : Json) :
    Keeps (IsListable document) (fun v => v.keepsLine = true) (target ref) := by
  refine (keeps_check _).bind fun _ _ => ?_
  split
  · refine Keeps.get.bind fun s hs => ?_
    split
    · rename_i v hfind
      have hpart := Schema.part_of_targetOf (hs.resolver.find? hfind)
      exact .pure (Json.keepsLine_of_part hpart hdocument)
    · exact .throw _
  · exact .throw _

end Session

namespace Schema

open Session (keeps_orFail keeps_check keeps_addRule keeps_addNamed keeps_target)

/-- A way to compile schemas that keeps sessions listable where the schemas keep to a line. -/
def Lists (document : Json) (visit : Visit) : Prop :=
  ∀ S hint, keepsLine S = true → Keeps (Session.IsListable document) IsOneLine (visit S hint)

section Builders

variable {document : Json} {visit : Visit} {options : Options} {fields : Fields} {x : Site}
variable {name key : String}

theorem keepsLine_keyword (h : fieldsKeepLine x.fields = true) (key : String) :
    (x.keyword key).keepsLine = true := by
  unfold Site.keyword
  cases hget : x.keyword? key with
  | none => rfl
  | some v => exact Json.keepsLine_get? h hget

/-- A rule whose body is the name of another one. -/
theorem keeps_alias (own : String) : Keeps (Session.IsListable document) IsOneLine
    (do Session.addRule x.ruleName (← Session.addNamed own own)) :=
  (keeps_addNamed own own).bind fun _ hslot => keeps_addRule _ hslot

/-! ### Constants, strings and integers -/

theorem isOneLine_constant {v : Json} (h : v.keepsLine = true) : IsOneLine (constant v) :=
  Grammar.isOneLine_literalText (Json.isOneLine_compact v h)

theorem isOneLine_choiceOf {literals : List String} (h : ∀ s ∈ literals, IsOneLine s) :
    IsOneLine (choiceOf literals) :=
  .between (by decide) (isOneLine_intercalate (by decide) h) (by decide)

theorem keeps_visitConst (h : fieldsKeepLine x.fields = true) :
    Keeps (Session.IsListable document) IsOneLine (visitConst x) := by
  have hconstant := isOneLine_constant (keepsLine_keyword h "const")
  exact (keeps_check _).bind fun _ _ => keeps_addRule _ (hconstant.append (by decide))

theorem keeps_visitEnum (h : fieldsKeepLine x.fields = true) :
    Keeps (Session.IsListable document) IsOneLine (visitEnum x) := by
  refine (keeps_orFail fun values => keepsLine_elements (keepsLine_keyword h "enum")).bind
    fun values hvalues => (keeps_check _).bind fun _ _ =>
      keeps_addRule _ (isOneLine_choiceOf fun literal hliteral => ?_)
  obtain ⟨v, hv, rfl⟩ := List.mem_map.1 hliteral
  exact isOneLine_constant (hvalues v hv)

theorem keeps_visitPattern (h : fieldsKeepLine x.fields = true) :
    Keeps (Session.IsListable document) IsOneLine (visitPattern options x) := by
  unfold visitPattern
  split
  · rename_i pattern hkeyword
    have hget : Fields.get? x.fields "pattern" = some (.str pattern) := by
      unfold Site.keyword Site.keyword? at hkeyword
      cases hget : Fields.get? x.fields "pattern" with
      | none => simp [hget] at hkeyword
      | some v =>
        rw [hget] at hkeyword
        exact congrArg some hkeyword
    exact Session.keeps_onTable
      (Pattern.keeps_toRule (Json.isOneLine_copied h (by decide) hget) _ _)
  · exact .throw _

/-- A count is on one line, as a text is copied from a field that keeps to a line. -/
theorem isOneLine_keyword (h : fieldsKeepLine x.fields = true) (hkey : key ∈ copiedKeywords) :
    IsOneLine (x.keyword key).shown := by
  refine Json.isOneLine_shown fun s hs => ?_
  unfold Site.keyword at hs
  cases hget : x.keyword? key with
  | none => simp [hget] at hs
  | some v =>
    obtain rfl : v = .str s := by simpa [hget] using hs
    exact Json.isOneLine_copied h hkey hget

theorem keeps_counted {minKey maxKey : String} {build : Json → Json → Except Failure String}
    (h : fieldsKeepLine x.fields = true) (hmin : minKey ∈ copiedKeywords)
    (hmax : maxKey ∈ copiedKeywords)
    (hbuild : ∀ low high e, IsOneLine low.shown → IsOneLine high.shown → build low high = .ok e →
      IsOneLine e) :
    Keeps (Session.IsListable document) IsOneLine (counted x minKey maxKey build) := by
  have hlow : IsOneLine (orElse (x.keyword? minKey) (.num (.whole 0))).shown := by
    have hgiven := isOneLine_keyword h hmin
    unfold Site.keyword at hgiven
    unfold orElse
    cases hget : x.keyword? minKey with
    | none => exact (by decide : IsOneLine (Json.num (.whole 0)).shown)
    | some v =>
      rw [hget] at hgiven
      dsimp only
      split_ifs
      · exact (by decide : IsOneLine (Json.num (.whole 0)).shown)
      · exact hgiven
  unfold counted
  dsimp only
  split
  · exact .throw _
  · exact keeps_orFail fun e he => hbuild _ _ e hlow (isOneLine_keyword h hmax) he

theorem keeps_visitBoundedString (h : fieldsKeepLine x.fields = true) :
    Keeps (Session.IsListable document) IsOneLine (visitBoundedString x) := by
  refine (keeps_addNamed "char" "char").bind fun char hchar => ?_
  refine (keeps_counted h (by decide) (by decide) fun low high e hlow hhigh he =>
    Grammar.isOneLine_repetition hchar hlow hhigh he).bind fun chars hchars => ?_
  exact keeps_addRule _ (.between (by decide) hchars (by decide))

theorem keeps_visitIntRange (options : Options) (x : Site) :
    Keeps (Session.IsListable document) IsOneLine (visitIntRange options x) := by
  refine (keeps_check _).bind fun b _ => ?_
  split
  · rename_i expression hexpression
    exact keeps_addRule _
      (.between (by decide) (IntRange.isOneLine_expression hexpression) (by decide))
  · exact .throw _

variable (hdocument : document.keepsLine = true) (hvisit : Lists document visit)

/-! ### References and alternatives -/

include hvisit in
theorem keeps_referenceRule (ref : String) {target : Json} (h : target.keepsLine = true) :
    Keeps (Session.IsListable document) IsOneLine (referenceRule visit ref target) := by
  refine (Session.keeps_reserve _).bind fun claimed hclaimed => ?_
  refine (Session.keeps_nameReference ref hclaimed).bind fun _ _ => ?_
  refine (Session.keeps_note _).bind fun _ _ => ?_
  refine (hvisit target claimed h).bind fun found hfound => ?_
  dsimp only
  split_ifs
  · refine (Session.keeps_release _).bind fun _ _ => ?_
    refine (Session.keeps_nameReference ref hfound).bind fun _ _ => ?_
    exact (Session.keeps_note _).bind fun _ _ => .pure hfound
  · exact (Session.keeps_note _).bind fun _ _ => .pure hfound

include hdocument hvisit in
theorem keeps_visitRef : Keeps (Session.IsListable document) IsOneLine (visitRef visit x) := by
  refine (keeps_check _).bind fun _ _ => ?_
  split
  · rename_i ref hkeyword
    have hlast (rule : String) (hrule : IsOneLine rule) :
        Keeps (Session.IsListable document) IsOneLine (do
          let name ← Session.addRule x.ruleName rule
          Session.note (.linked ref name rule)
          return name) :=
      (keeps_addRule _ hrule).bind fun name hname =>
        (Session.keeps_note _).bind fun _ _ => .pure hname
    refine Keeps.get.bind fun s hs => ?_
    split
    · rename_i rule hlookup
      exact hlast rule (hs.names _ (Assoc.mem_of_lookup hlookup))
    · exact (keeps_target hdocument _).bind fun target htarget =>
        (keeps_referenceRule hvisit ref htarget).bind hlast
  · exact .throw _

include hvisit in
theorem keeps_alternatives (name : String) {schemas : List Json}
    (h : ∀ S ∈ schemas, keepsLine S = true) :
    Keeps (Session.IsListable document) IsOneLine (alternatives visit name schemas) := by
  refine (Keeps.mapM fun x hx => ?_).bind fun rules hrules =>
    .pure (isOneLine_intercalate (by decide) hrules)
  obtain ⟨S, i⟩ := x
  exact hvisit S _ (h S (List.fst_mem_of_mem_zipIdx hx))

include hvisit in
theorem keeps_visitUnion (h : fieldsKeepLine x.fields = true) :
    Keeps (Session.IsListable document) IsOneLine (visitUnion visit x) := by
  refine (keeps_orFail fun schemas => keepsLine_elements ?_).bind fun schemas hschemas =>
    (keeps_alternatives hvisit x.name hschemas).bind fun _ hbody => keeps_addRule _ hbody
  split
  · rename_i v hgiven
    unfold given? at hgiven
    split at hgiven
    · cases hgiven
    · exact Json.keepsLine_get? h hgiven
  · exact keepsLine_keyword h "anyOf"

include hvisit in
theorem keeps_visitTypeUnion (h : fieldsKeepLine x.fields = true) :
    Keeps (Session.IsListable document) IsOneLine (visitTypeUnion visit x) := by
  refine (keeps_orFail fun types => keepsLine_elements (keepsLine_keyword h "type")).bind
    fun types htypes => ?_
  refine (keeps_alternatives hvisit x.name fun S hS => ?_).bind fun _ hbody => keeps_addRule _ hbody
  obtain ⟨t, ht, rfl⟩ := List.mem_map.1 hS
  exact Json.keepsLine_set h (htypes t ht) (by decide) (by decide)

/-! ### Lists -/

include hvisit in
theorem keeps_visitTuple (h : fieldsKeepLine x.fields = true) :
    Keeps (Session.IsListable document) IsOneLine (visitTuple visit x) := by
  refine (Keeps.mapM fun item hitem => ?_).bind fun rules hrules =>
    keeps_addRule _ (.between (by decide) (isOneLine_intercalate (by decide) hrules) (by decide))
  obtain ⟨item, i⟩ := item
  refine hvisit item _ ?_
  have hmem := List.fst_mem_of_mem_zipIdx hitem
  -- the items are listed under one of two keys, or there are none
  split at hmem
  · rename_i items hget
    exact Json.itemsKeepLine_iff.1 (Json.keepsLine_get? h hget) item hmem
  · split at hmem
    · rename_i items hget
      exact Json.itemsKeepLine_iff.1 (Json.keepsLine_get? h hget) item hmem
    · cases hmem

include hvisit in
theorem keeps_visitArray (h : fieldsKeepLine x.fields = true) :
    Keeps (Session.IsListable document) IsOneLine (visitArray visit x) := by
  have hlist (itemRule : String) (hitem : IsOneLine itemRule) :
      Keeps (Session.IsListable document) IsOneLine (do
        let items ← counted x "minItems" "maxItems"
          (Grammar.separatedRepetition itemRule "\",\" space")
        Session.addRule x.ruleName ("\"[\" space " ++ items ++ " \"]\" space")) :=
    (keeps_counted h (by decide) (by decide) fun low high e hlow hhigh he =>
      Grammar.isOneLine_separatedRepetition hitem (by decide) hlow hhigh he).bind
        fun items hitems => keeps_addRule _ (.between (by decide) hitems (by decide))
  have hitems := keepsLine_keyword h "items"
  unfold visitArray
  dsimp only
  split
  · exact keeps_addRule _ (by decide)
  · exact (keeps_addNamed _ _).bind hlist
  · exact (keeps_addNamed _ _).bind hlist
  · exact (hvisit _ _ hitems).bind hlist

/-! ### Objects -/

theorem keeps_entriesFrom (name : String) (present : Bool) {entries : List Entry}
    (h : ∀ entry ∈ entries, IsOneLine entry.pair) :
    Keeps (Session.IsListable document) IsOneLine (entriesFrom name present entries) := by
  induction entries generalizing present with
  | nil => exact .pure (by decide)
  | cons entry rest ih =>
    obtain ⟨hpair, hrest⟩ := List.forall_mem_cons.1 h
    have hmore : IsOneLine ("( \",\" space " ++ entry.pair ++ " )") :=
      .between (by decide) hpair (by decide)
    have hfirst : IsOneLine (if present then
        entry.pair ++ (if entry.repeats then " " ++ ("( \",\" space " ++ entry.pair ++ " )") ++ "*" else "")
        else ("( \",\" space " ++ entry.pair ++ " )") ++ (if entry.repeats then "*" else "?")) := by
      split_ifs
      · exact hpair.append (.between (by decide) hmore (by decide))
      · exact hpair.append (by decide)
      · exact hmore.append (by decide)
      · exact hmore.append (by decide)
    rw [entriesFrom]
    split
    · exact .pure hfirst
    · exact (ih false hrest).bind fun following hfollowing =>
        (keeps_addRule _ hfollowing).bind fun rule hrule =>
          .pure (.between hfirst (by decide) hrule)

theorem keeps_startings (name : String) {entries : List Entry}
    (h : ∀ entry ∈ entries, IsOneLine entry.pair) :
    Keeps (Session.IsListable document) (fun texts => ∀ text ∈ texts, IsOneLine text)
      (startings name entries) := by
  induction entries with
  | nil => exact .pure (by simp)
  | cons entry rest ih =>
    rw [startings]
    exact (keeps_entriesFrom name true h).bind fun here hhere =>
      (ih (List.forall_mem_cons.1 h).2).bind fun others hothers =>
        .pure (List.forall_mem_cons.2 ⟨hhere, hothers⟩)

theorem keeps_optionalPart (name : String) (hasRequired : Bool) {entries : List Entry}
    (h : ∀ entry ∈ entries, IsOneLine entry.pair) :
    Keeps (Session.IsListable document) IsOneLine (optionalPart name hasRequired entries) := by
  unfold optionalPart
  split_ifs
  · exact .pure (by decide)
  · refine (keeps_startings name h).bind fun choices hchoices => .pure ?_
    have hall := isOneLine_intercalate (by decide : IsOneLine " | ") hchoices
    exact .between (by decide) (.between (by decide) hall (by decide)) (by decide)
  · refine (keeps_startings name h).bind fun choices hchoices => .pure ?_
    exact .between (by decide) (isOneLine_intercalate (by decide) hchoices) (by decide)

include hvisit

theorem keeps_pairRules {properties : List (String × Json)} (h : fieldsKeepLine properties = true)
    {done : List (String × String)} (hdone : ∀ pair ∈ done, IsOneLine pair.2) :
    Keeps (Session.IsListable document) (fun pairs => ∀ pair ∈ pairs, IsOneLine pair.2)
      (pairRules visit name properties done) := by
  induction properties generalizing done with
  | nil => exact .pure hdone
  | cons property rest ih =>
    obtain ⟨key, S⟩ := property
    have hall := Json.fieldsKeepLine_iff.1 h
    obtain ⟨⟨hkey, -, hS⟩, hrest⟩ := List.forall_mem_cons.1 hall
    have hpair : Keeps (Session.IsListable document) IsOneLine (pairRule visit name (key, S)) :=
      (hvisit S _ hS).bind fun rule hrule =>
        keeps_addRule _ (.between (isOneLine_constant hkey) (by decide) hrule)
    rw [pairRules]
    refine hpair.bind fun rule hrule => ih (Json.fieldsKeepLine_iff.2 hrest) fun pair hpair => ?_
    rcases Assoc.mem_of_mem_set hpair with hold | rfl
    · exact hdone pair hold
    · exact hrule

theorem keeps_additionalEntry {keys : List String} {allowed : Json}
    (hkeys : ∀ key ∈ keys, escapesLineEnds key = true) (hallowed : allowed.keepsLine = true) :
    Keeps (Session.IsListable document) (fun entries => ∀ entry ∈ entries, IsOneLine entry.pair)
      (additionalEntry visit name keys allowed) := by
  have hpair (keyRule valueRule : String) (hkey : IsOneLine keyRule) (hvalue : IsOneLine valueRule) :
      Keeps (Session.IsListable document) (fun entries => ∀ entry ∈ entries, IsOneLine entry.pair) (do
        let pair ← Session.addRule (subName name "additional" ++ "-kv")
          (keyRule ++ " \":\" space " ++ valueRule)
        return [(⟨"*", pair, true⟩ : Entry)]) :=
    (keeps_addRule _ (.between hkey (by decide) hvalue)).bind fun pair hpair => .pure (by simpa using hpair)
  have hentry (valueRule : String) (hvalue : IsOneLine valueRule) :
      Keeps (Session.IsListable document) (fun entries => ∀ entry ∈ entries, IsOneLine entry.pair) (do
        let keyRule ←
          if keys.isEmpty then Session.addNamed "string" "string"
          else
            let body ← Session.onTable (Exclusion.bodyFor (keys.map Json.str))
            Session.addRule (subName name "additional" ++ "-k") body
        let pair ← Session.addRule (subName name "additional" ++ "-kv")
          (keyRule ++ " \":\" space " ++ valueRule)
        return [(⟨"*", pair, true⟩ : Entry)]) := by
    dsimp only
    split_ifs
    · exact (keeps_addNamed _ _).bind fun keyRule hkey => hpair keyRule valueRule hkey hvalue
    · refine (Session.keeps_onTable (Exclusion.keeps_bodyFor fun v hv => ?_)).bind fun body hbody =>
        (keeps_addRule _ hbody).bind fun keyRule hkey => hpair keyRule valueRule hkey hvalue
      obtain ⟨key, hkey, rfl⟩ := List.mem_map.1 hv
      exact hkeys key hkey
  unfold additionalEntry
  dsimp only
  split
  · exact (keeps_addNamed _ _).bind hentry
  · exact (keeps_addNamed _ _).bind hentry
  · exact (hvisit _ _ hallowed).bind hentry
  · exact .pure (by simp)

theorem keeps_objectBody {properties : List (String × Json)} {required : List String}
    {additional : Json} (h : fieldsKeepLine properties = true) (hadditional : additional.keepsLine = true) :
    Keeps (Session.IsListable document) IsOneLine
      (objectBody visit options name properties required additional) := by
  have hkeys (keys : List String)
      (hsort : options.sortProperties (Assoc.ofPairs properties |>.map Prod.fst) = .ok keys) :
      ∀ key ∈ keys, escapesLineEnds key = true := by
    intro key hkey
    have hmem := (Options.perm_sortProperties hsort).mem_iff.1 hkey
    obtain ⟨property, hproperty, rfl⟩ := List.mem_map.1 hmem
    exact (Json.fieldsKeepLine_iff.1 h _ (Assoc.ofPairs_subset properties hproperty)).1
  refine (keeps_orFail hkeys).bind fun keys hkeys => ?_
  refine (keeps_pairRules hvisit h (by simp)).bind fun pairs hpairs => ?_
  have hpairOf (key : String) : IsOneLine ((pairs.lookup key).getD "") := by
    cases hlookup : pairs.lookup key with
    | none => exact (by decide : IsOneLine "")
    | some pair => exact hpairs _ (Assoc.mem_of_lookup hlookup)
  refine (keeps_additionalEntry hvisit hkeys hadditional).bind fun extra hextra => ?_
  refine (keeps_optionalPart name _ fun entry hentry => ?_).bind fun rest hrest => .pure ?_
  · rcases List.mem_append.1 hentry with hentry | hentry
    · obtain ⟨key, -, rfl⟩ := List.mem_map.1 hentry
      exact hpairOf key
    · exact hextra entry hentry
  · refine IsOneLine.append (.append (.append (by decide) (isOneLine_intercalate (by decide) ?_)) hrest)
      (by decide)
    intro pair hpair
    obtain ⟨key, -, rfl⟩ := List.mem_map.1 hpair
    exact hpairOf key

theorem keeps_visitObject (h : fieldsKeepLine x.fields = true) :
    Keeps (Session.IsListable document) IsOneLine (visitObject visit options x) := by
  refine (keeps_orFail fun properties => keepsLine_declaredProperties h).bind fun properties hproperties => ?_
  refine (keeps_check _).bind fun required _ => ?_
  exact (keeps_objectBody hvisit hproperties (keepsLine_keyword h _)).bind fun body hbody =>
    keeps_addRule _ hbody

/-! ### Combined schemas -/

omit hvisit

/-- What has been put together keeps to a line. -/
structure Merged.KeepsLine (m : Merged) : Prop where
  properties : fieldsKeepLine m.properties = true
  enums : ∀ list ∈ m.enums, ∀ text ∈ list, IsOneLine text

theorem Merged.KeepsLine.add {m : Merged} (h : m.KeepsLine) {properties : Fields}
    (hproperties : fieldsKeepLine properties = true) {enums : List (List String)}
    (henums : ∀ list ∈ enums, ∀ text ∈ list, IsOneLine text) (required : List String) :
    Merged.KeepsLine ⟨required, m.properties ++ properties, m.enums ++ enums⟩ := by
  refine ⟨Json.fieldsKeepLine_iff.2 fun x hx => ?_, fun list hlist => ?_⟩
  · rcases List.mem_append.1 hx with hx | hx
    · exact Json.fieldsKeepLine_iff.1 h.properties x hx
    · exact Json.fieldsKeepLine_iff.1 hproperties x hx
  · rcases List.mem_append.1 hlist with hlist | hlist
    · exact h.enums list hlist
    · exact henums list hlist

/-- The JSON texts of the constants in a list. -/
theorem isOneLine_constants {values : List Json} (h : ∀ v ∈ values, keepsLine v = true) :
    ∀ list ∈ [(values.map Json.compact).eraseDups], ∀ text ∈ list, IsOneLine text := by
  simp only [List.mem_singleton, forall_eq, List.mem_eraseDups]
  intro text htext
  obtain ⟨v, hv, rfl⟩ := List.mem_map.1 htext
  exact Json.isOneLine_compact v (h v hv)

include hdocument

/-- What is done with a branch, or with its target if it is a reference. -/
theorem keeps_withPart {α : Type} {Q : α → Prop} {part : Json} (hpart : part.keepsLine = true)
    {rest : Json → CompileM α}
    (hrest : ∀ part, part.keepsLine = true → Keeps (Session.IsListable document) Q (rest part)) :
    Keeps (Session.IsListable document) Q (do
      if ← Session.orFail (containsText part "$ref") then
        rest (← Session.target (← Session.orFail (fieldOf part "$ref")))
      else
        rest part) := by
  refine (keeps_check _).bind fun isReference _ => ?_
  split_ifs
  · refine (keeps_check _).bind fun ref _ => ?_
    exact (keeps_target hdocument ref).bind hrest
  · exact hrest part hpart

theorem keeps_addPart {m : Merged} (hm : m.KeepsLine) {part : Json} (hpart : part.keepsLine = true)
    (isRequired : Bool) :
    Keeps (Session.IsListable document) Merged.KeepsLine (addPart m part isRequired) := by
  refine keeps_withPart hdocument hpart fun part hpart => ?_
  refine (keeps_orFail (Q := fun fields => fieldsKeepLine fields = true) fun fields hfields => ?_).bind
    fun fields hfields => ?_
  · cases part with
    | obj fields' =>
      obtain rfl := Except.ok.inj hfields
      exact hpart
    | _ => cases hfields
  refine (keeps_orFail fun properties => keepsLine_declaredProperties hfields).bind
    fun properties hproperties => ?_
  dsimp only
  split
  · rename_i v hget
    refine (keeps_orFail fun values => keepsLine_elements (Json.keepsLine_get? hfields hget)).bind
      fun values hvalues => ?_
    exact (keeps_check _).bind fun _ _ => .pure (hm.add hproperties (isOneLine_constants hvalues) _)
  · exact .pure (hm.add hproperties (by simp) _)

theorem keeps_addBranch {m : Merged} (hm : m.KeepsLine) {branch : Json}
    (hbranch : branch.keepsLine = true) :
    Keeps (Session.IsListable document) Merged.KeepsLine (addBranch m branch) := by
  refine (keeps_check _).bind fun hasParts _ => ?_
  split_ifs
  · refine (keeps_orFail (Q := fun v => keepsLine v = true) fun v hv => ?_).bind fun v hv => ?_
    · cases branch with
      | obj fields =>
        obtain rfl := Except.ok.inj hv
        cases hget : Fields.get? fields "anyOf" with
        | none => rfl
        | some v => exact Json.keepsLine_get? hbranch hget
      | _ => cases hv
    · exact (keeps_orFail fun parts => keepsLine_elements hv).bind fun parts hparts =>
        .foldlM (fun m hm part hpart => keeps_addPart hdocument hm (hparts part hpart) false) hm
  · exact keeps_addPart hdocument hm hbranch true

include hvisit

theorem keeps_visitAllOf (h : fieldsKeepLine x.fields = true) :
    Keeps (Session.IsListable document) IsOneLine (visitAllOf visit options x) := by
  have hstart : Merged.KeepsLine ⟨[], [], []⟩ := ⟨rfl, by simp⟩
  refine (keeps_orFail fun branches => keepsLine_elements (keepsLine_keyword h "allOf")).bind
    fun branches hbranches => ?_
  refine (Keeps.foldlM (fun m hm branch hbranch =>
    keeps_addBranch hdocument hm (hbranches branch hbranch)) hstart).bind fun merged hmerged => ?_
  dsimp only
  split
  · exact (keeps_objectBody hvisit hmerged.properties rfl).bind fun body hbody => keeps_addRule _ hbody
  · refine keeps_addRule _ (isOneLine_choiceOf fun literal hliteral => ?_)
    obtain ⟨text, htext, rfl⟩ := List.mem_map.1 hliteral
    have hcommon := (List.mergeSort_perm _ _).mem_iff.1 htext
    have henums := hmerged.enums
    unfold commonConstants at hcommon
    split at hcommon
    · cases hcommon
    · rename_i first others heq
      exact Grammar.isOneLine_literalText (henums first (by simp [heq]) text (List.mem_of_mem_filter hcommon))

/-! ### All shapes -/

/-- **The rules of a schema that keeps to a line are on one line each**, if those of the schemas
    inside are. -/
theorem lists_visitWith (options : Options) : Lists document (visitWith visit options) := by
  intro S hint hS
  unfold visitWith
  split
  · rename_i fields
    dsimp only
    split
    · exact keeps_visitRef hdocument hvisit
    · exact keeps_visitUnion hvisit hS
    · exact keeps_visitTypeUnion hvisit hS
    · exact keeps_visitConst hS
    · exact keeps_visitEnum hS
    · exact keeps_visitObject hvisit hS
    · exact keeps_visitAllOf hdocument hvisit hS
    · exact keeps_visitTuple hvisit hS
    · exact keeps_visitArray hvisit hS
    · exact keeps_visitPattern hS
    · exact keeps_addNamed _ _
    · exact keeps_alias _
    · exact keeps_visitBoundedString hS
    · exact keeps_visitIntRange options _
    · exact keeps_alias _
    · exact keeps_addNamed _ _
    · exact .throw _
  · exact .throw _

end Builders

/-- By induction on how deep schemas nest: what one level keeps, all levels keep. -/
theorem lists_visit {document : Json} (hdocument : document.keepsLine = true) (options : Options)
    (depth : Nat) : Lists document (visit options depth) := by
  induction depth with
  | zero => exact fun _ _ _ => .throw _
  | succ depth ih => exact lists_visitWith hdocument ih options

end Schema

end SchemaGrammar
