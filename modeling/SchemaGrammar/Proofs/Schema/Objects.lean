import SchemaGrammar.Proofs.Rules.Exclusion
import SchemaGrammar.Proofs.Rules.Typing
import SchemaGrammar.Proofs.RunSort
import SchemaGrammar.Proofs.Schema.Builders

set_option autoImplicit false

/-! # The builder for objects is exact

The pairs of the declared properties are compiled one after the other; a name that is declared again
keeps its last pair. A property with the empty name below the empty hint takes the root, which is
why the loop over the properties says what becomes of the root (`PairsCompiled`). -/

namespace SchemaGrammar

open Grammar (separated)
open RuleTable (HasPlainDigits Requestable escapeName keepsInName IsSlot)

namespace Assoc

variable {α : Type}

theorem mem_of_lookup_ofPairs {pairs : List (String × α)} {name : String} {v : α}
    (h : (ofPairs pairs).lookup name = some v) : (name, v) ∈ pairs :=
  ofPairs_subset pairs (mem_of_lookup h)

theorem mem_of_mem_ofPairs {pairs : List (String × α)} {name : String}
    (h : name ∈ (ofPairs pairs).map Prod.fst) : name ∈ pairs.map Prod.fst :=
  List.map_subset _ (ofPairs_subset pairs) h

end Assoc

namespace Schema

/-- The digits of a key are in a name of the table. -/
def CoversKey (t : RuleTable) (key : String) : Prop :=
  ∃ name, t.has name = true ∧ ∀ c ∈ key.toList, keepsInName c = true → c ∈ name.toList

theorem CoversKey.extend {t t' : RuleTable} {key : String} (h : CoversKey t key)
    (ht : t.Extends t') : CoversKey t' key := by
  obtain ⟨name, hname, hchars⟩ := h
  exact ⟨name, ht.has hname, hchars⟩

/-- A rule that is named after a key. -/
theorem coversKey_of_adds {t t' : RuleTable} {name key ending body slot : String}
    (h : RuleTable.Adds t (subName name (key ++ ending)) body slot t') : CoversKey t' key := by
  refine ⟨slot, RuleTable.has_of_find? h.find?, fun c hc hkeep => h.isSlot.mem hkeep ?_⟩
  rw [subName]
  split_ifs <;> simp [hc]

/-! ## Pairs -/

section Pairs

variable (options : Options) (document : Json) (plain : Prop) (busy : String → Prop)

/-- The pair rules found so far are those of the schemas by the same names. -/
def Agree (t : RuleTable) (pairs : List (String × String)) (schemas : List (String × Json)) : Prop :=
  ∀ key, Option.Rel
    (fun rule S => t.Denotes rule (pair (valueText (.str key)) (language options document S)))
    (pairs.lookup key) (schemas.lookup key)

/-- What compiling the pairs of some properties leaves behind. -/
structure PairsCompiled (hint : String) (properties schemas : List (String × Json))
    (s s' : Session) (pairs : List (String × String)) : Prop where
  session : SoundSession options document plain busy s'
  extends_ : s.table.Extends s'.table
  remembers : s.Remembers s'
  agree : Agree options document s'.table pairs
    (properties.foldl (fun done x => Assoc.set done x.1 x.2) schemas)
  covers : ∀ x ∈ properties, CoversKey s'.table x.1 ∧ Covers document s'.table x.2
  kept : hint ≠ "" → s'.table.find? "root" = s.table.find? "root"
  free : hint = "" → s.table.find? "root" = none → properties.lookup "" = none →
    s'.table.find? "root" = none
  rooted : hint = "" → s.table.find? "root" = none → ∀ S, properties.lookup "" = some S →
    s'.table.Denotes "root" (language options document (start S))

end Pairs

section Pairs

variable {options : Options} {document : Json} {plain : Prop} {busy : String → Prop}

theorem Agree.extend {t t' : RuleTable} {pairs : List (String × String)}
    {schemas : List (String × Json)} (h : Agree options document t pairs schemas)
    (ht : t.Extends t') : Agree options document t' pairs schemas := by
  intro key
  have hkey := h key
  generalize pairs.lookup key = rule, schemas.lookup key = S at hkey ⊢
  cases hkey with
  | some hd => exact .some (hd.extend ht)
  | none => exact .none

theorem Agree.set {t : RuleTable} {pairs : List (String × String)}
    {schemas : List (String × Json)} {key rule : String} {S : Json}
    (h : Agree options document t pairs schemas)
    (hrule : t.Denotes rule (pair (valueText (.str key)) (language options document S))) :
    Agree options document t (Assoc.set pairs key rule) (Assoc.set schemas key S) := by
  intro other
  rw [Assoc.lookup_set, Assoc.lookup_set]
  split_ifs with heq
  · subst heq
    exact .some hrule
  · exact h other

/-- A literal key and its value. -/
theorem writes_pair {t : RuleTable} {valueRule : String} {L : Language Char} (h : t.Complete)
    (key : String) (hvalue : t.Denotes valueRule L) :
    t.Writes (constant (.str key) ++ " space \":\" space " ++ valueRule)
      (pair (valueText (.str key)) L) :=
  (readsRow_pair h.denotes_space.item key hvalue.item).reads

variable {visit : Visit} (hvisit : IsExact options document plain visit)
variable {s s' : Session} {hint : String}

include hvisit

theorem pairRules_compiled {properties schemas : List (String × Json)}
    {done pairs : List (String × String)} (hs : SoundSession options document plain busy s)
    (hhint : plain → HasPlainDigits hint) (hagree : Agree options document s.table done schemas)
    (h : ∀ x ∈ properties, (plain → HasPlainDigits x.1) ∧ Reaches document document x.2 ∧
      IsFree document busy x.2)
    (hrun : pairRules visit hint properties done s = .ok pairs s') :
    PairsCompiled options document plain busy hint properties schemas s s' pairs := by
  induction properties generalizing s done schemas with
  | nil =>
    obtain ⟨rfl, rfl⟩ := Work.pure_eq_ok.1 hrun
    exact ⟨hs, .refl _, .refl s, hagree, by simp, fun _ => rfl, fun _ hnone _ => hnone, by simp⟩
  | cons x rest ih =>
    obtain ⟨key, S⟩ := x
    obtain ⟨hkey, hreach, hfree⟩ := h (key, S) (by simp)
    obtain ⟨rule, s₂, hpair, hrest⟩ := Work.bind_eq_ok.1 hrun
    obtain ⟨valueRule, s₁, hvalue, hadd⟩ := Work.bind_eq_ok.1 hpair
    have hcompiled := hvisit busy _ _ _ _ _ hvalue hs hreach
      (fun hp => hasPlainDigits_subName (hhint hp) (hkey hp)) hfree
    have hbody := writes_pair hcompiled.session.table.complete key hcompiled.denotes
    obtain ⟨t, hslot, rfl⟩ := Session.addRule_eq_ok.1 hadd
    obtain ⟨hask, hroot⟩ := requestable_key (show "-kv" ∈ _ by simp) hhint hkey
    obtain ⟨hadds, hsound, hdenotes⟩ := hcompiled.session.table.add hask hbody hslot
    have hs₂ := hcompiled.session.withTable hsound hadds.extends
    have hsame := (hadds.grows hsound hroot).root
    have hdone := ih hs₂ (((hagree.extend hcompiled.extends_).extend hadds.extends).set hdenotes)
      (fun x hx => h x (List.mem_cons_of_mem _ hx)) hrest
    have hlater : s₁.table.Extends s'.table := hadds.extends.trans hdone.extends_
    refine ⟨hdone.session, hcompiled.extends_.trans hlater, hcompiled.remembers.trans hdone.remembers,
      hdone.agree, fun x hx => ?_, fun hne => ?_, fun hempty hnone hlookup => ?_,
      fun hempty hnone S' hlookup => ?_⟩
    · rcases List.mem_cons.1 hx with rfl | hx
      · exact ⟨(coversKey_of_adds hadds).extend hdone.extends_, hcompiled.covers.extend hlater⟩
      · exact hdone.covers x hx
    · exact (hdone.kept hne).trans (hsame.trans (hcompiled.kept (subName_ne_empty (.inl hne))))
    · rw [Assoc.lookup_cons] at hlookup
      split_ifs at hlookup with hkey'
      exact hdone.free hempty (hsame.trans ((hcompiled.kept
        (subName_ne_empty (.inr (Ne.symm hkey')))).trans hnone)) hlookup
    · rw [Assoc.lookup_cons] at hlookup
      split_ifs at hlookup with hkey'
      · obtain rfl := Option.some.inj hlookup
        have hboth : subName hint key = "" := by
          subst hempty
          exact hkey'.symm
        exact (hcompiled.rooted hboth hnone).extend hlater
      · exact hdone.rooted hempty (hsame.trans ((hcompiled.kept
          (subName_ne_empty (.inr (Ne.symm hkey')))).trans hnone)) S' hlookup

end Pairs

/-! ## Additional pairs -/

/-- What compiling the entry for additional pairs leaves behind. -/
structure AdditionalCompiled (options : Options) (document : Json) (plain : Prop)
    (busy : String → Prop) (fields : Json.Fields) (s s' : Session) (entries : List Entry) :
    Prop where
  proceeds : Proceeds options document plain busy s s'
  covers : ∀ S ∈ additionalSchemas fields, Covers document s'.table S
  keys : ∀ entry ∈ entries, HasPlainDigits entry.key
  describes : ∃ extra, Describes s'.table entries (extraLanguages extra) ∧
    extra.getD 0 = additionalPairs options (language options document) fields

section Additional

variable {options : Options} {document : Json} {plain : Prop} {busy : String → Prop}
variable {s s' : Session} {hint : String}

/-- The rule for the keys of additional pairs. -/
theorem keyRule_proceeds {keys : List String} {rule : String}
    (hs : SoundSession options document plain busy s) (hhint : plain → HasPlainDigits hint)
    (hrun : additionalKey hint keys s = .ok rule s') :
    Proceeds options document plain busy s s' ∧ s'.table.Denotes rule (otherKeys keys) := by
  unfold additionalKey at hrun
  rw [otherKeys]
  split_ifs at hrun ⊢ with hempty
  · exact addNamed_proceeds hs hrun
  · obtain ⟨body, s₁, hbody, hadd⟩ := Work.bind_eq_ok.1 hrun
    obtain ⟨t, hwork, rfl⟩ := Session.onTable_eq_ok.1 hbody
    obtain ⟨char, t₁, hchar, hlast⟩ := Work.bind_eq_ok.1 hwork
    obtain ⟨rfl, rfl⟩ := Work.pure_eq_ok.1 hlast
    have hnamed : Session.addNamed "char" "char" s = .ok char { s with table := t₁ } :=
      Session.onTable_eq_ok.2 ⟨t₁, hchar, rfl⟩
    obtain ⟨_, -, rfl, hgrows, hdenotes⟩ := Session.addNamed_grows hs.table hnamed
    have hcomplete : t₁.Complete := hgrows.table.sound.complete
    have hspace : t₁.builtins.ItemWithin "space" Standard.ws :=
      hcomplete.holdsCatalog.itemWithin_builtin ⟨by decide, RuleTable.has_of_find? hcomplete.space⟩
    have hrow := Exclusion.rowWithin_body
      (hcomplete.holdsCatalog.itemWithin_builtin ⟨by decide, hdenotes.known⟩) hspace
      (Exclusion.grows_keys keys)
    obtain ⟨hask, hroot⟩ := requestable_additional (show "-k" ∈ _ by simp) hhint
    obtain ⟨hgrows', hdenotes'⟩ := Session.addRule_grows hgrows.table.sound hask hroot
      (hcomplete.writes hrow.within.isExpression) hadd
    exact ⟨(Proceeds.refl hs).grows (hgrows.trans hgrows'), hdenotes'⟩

/-- A key of an additional pair and its value. -/
theorem writes_additional {t : RuleTable} {keyRule valueRule : String} {K L : Language Char}
    (h : t.Complete) (hkey : t.Denotes keyRule K) (hvalue : t.Denotes valueRule L) :
    t.Writes (keyRule ++ " \":\" space " ++ valueRule) (pair K L) :=
  (readsRow_additional h.denotes_space.item hkey.item hvalue.item).reads

variable {visit : Visit} (hvisit : IsExact options document plain visit)

include hvisit

/-- The entry for additional pairs, if there is one. -/
theorem additionalEntry_proceeds {fields : Json.Fields} {keys : List String} {entries : List Entry}
    (hs : SoundSession options document plain busy s) (hhint : plain → HasPlainDigits hint)
    (hkeys : propertyNames options fields = keys)
    (h : ∀ S ∈ additionalSchemas fields, Reaches document document S ∧ IsFree document busy S)
    (hrun : additionalEntry visit hint keys (keyword fields "additionalProperties") s =
      .ok entries s') :
    AdditionalCompiled options document plain busy fields s s' entries := by
  rw [additionalEntry_eq] at hrun
  -- the values have a rule already
  have hentry {s₁ : Session} {valueRule : String} {L : Language Char}
      (hproceeds : Proceeds options document plain busy s s₁) (hvalue : s₁.table.Denotes valueRule L)
      (hcovers : ∀ S ∈ additionalSchemas fields, Covers document s₁.table S)
      (hmeaning : additionalPairs options (language options document) fields =
        pair (otherKeys keys) L)
      (hwork : additionalPair hint keys valueRule s₁ = .ok entries s') :
      AdditionalCompiled options document plain busy fields s s' entries := by
    obtain ⟨keyRule, s₂, pairRule, hkey, hpair, rfl⟩ := additionalPair_eq_ok hwork
    obtain ⟨hproceeds', hdenotes⟩ := keyRule_proceeds hproceeds.session hhint hkey
    obtain ⟨hask, hroot⟩ := requestable_additional (show "-kv" ∈ _ by simp) hhint
    have hbody := writes_additional hproceeds'.session.table.complete hdenotes
      (hvalue.extend hproceeds'.extends_)
    obtain ⟨hgrows, hpairs⟩ := Session.addRule_grows hproceeds'.session.table hask hroot hbody hpair
    refine ⟨(hproceeds.trans hproceeds').grows hgrows, fun S hS => ?_, ?_,
      some _, .cons ⟨hpairs, rfl⟩ .nil, hmeaning.symm⟩
    · exact ((hcovers S hS).extend hproceeds'.extends_).extend hgrows.table.extends_
    · simp only [List.mem_singleton, forall_eq]
      decide
  have hnothing (hwork : (pure [] : CompileM (List Entry)) s = .ok entries s')
      (hnone : additionalSchemas fields = [])
      (hmeaning : additionalPairs options (language options document) fields = 0) :
      AdditionalCompiled options document plain busy fields s s' entries := by
    obtain ⟨rfl, rfl⟩ := Work.pure_eq_ok.1 hwork
    exact ⟨.refl hs, by simp [hnone], by simp, none, .nil, hmeaning.symm⟩
  have hmeaning : additionalPairs options (language options document) fields =
      additionalPairs options (language options document) fields := rfl
  conv_rhs at hmeaning => rw [additionalPairs, hkeys]
  have hschemas : additionalSchemas fields = additionalSchemas fields := rfl
  conv_rhs at hschemas => rw [additionalSchemas]
  cases hkind : keyword fields "additionalProperties" with
  | bool b =>
    rw [hkind] at hrun hmeaning hschemas
    cases b with
    | true =>
      obtain ⟨valueRule, s₁, hvalue, hwork⟩ := Work.bind_eq_ok.1 hrun
      obtain ⟨hproceeds, hdenotes⟩ := addNamed_proceeds hs hvalue
      exact hentry hproceeds hdenotes (by simp [hschemas]) hmeaning hwork
    | false => exact hnothing hrun hschemas hmeaning
  | obj inner =>
    rw [hkind] at hrun hmeaning hschemas
    cases inner with
    | nil =>
      obtain ⟨valueRule, s₁, hvalue, hwork⟩ := Work.bind_eq_ok.1 hrun
      obtain ⟨hproceeds, hdenotes⟩ := addNamed_proceeds hs hvalue
      exact hentry hproceeds hdenotes (by simp [hschemas]) hmeaning hwork
    | cons field rest =>
      obtain ⟨valueRule, s₁, hvalue, hwork⟩ := Work.bind_eq_ok.1 hrun
      obtain ⟨hreach, hfree⟩ := h _ (by rw [hschemas]; exact List.mem_singleton.2 rfl)
      have hcompiled := hvisit busy _ _ _ _ _ hvalue hs hreach (fun hp =>
        (hasPlainDigits_subName (hhint hp) (by decide)).append (by decide)) hfree
      exact hentry (hcompiled.proceeds (by simp)) hcompiled.denotes
        (by simpa [hschemas] using hcompiled.covers) hmeaning hwork
  | _ =>
    rw [hkind] at hrun hmeaning hschemas
    exact hnothing hrun hschemas hmeaning

end Additional

/-! ## Whole objects -/

/-- What compiling the body of an object leaves behind. -/
structure BodyCompiled (options : Options) (document : Json) (plain : Prop) (busy : String → Prop)
    (fields : Json.Fields) (hint : String) (s s' : Session) (body : String) : Prop where
  session : SoundSession options document plain busy s'
  extends_ : s.table.Extends s'.table
  remembers : s.Remembers s'
  writes : s'.table.Writes body (objectMeaning options (language options document) fields)
  inside : ∀ S' ∈ inside document (.obj fields), Covers document s'.table S'
  keys : ∀ key ∈ keysOf (.obj fields), CoversKey s'.table key
  kept : hint ≠ "" → s'.table.find? "root" = s.table.find? "root"
  rooted : hint = "" → s.table.find? "root" = none →
    s'.table.find? "root" = none ∧ start (.obj fields) = .obj fields ∨
      s'.table.Denotes "root" (language options document (start (.obj fields)))

section Objects

variable {options : Options} {document : Json} {plain : Prop} {busy : String → Prop}
variable {s s' : Session} {fields : Json.Fields} {hint name : String}

/-- The rule of a declared key is that of its pair. -/
theorem Agree.denotes {t : RuleTable} {pairs : List (String × String)}
    {schemas : List (String × Json)} {key : String} (h : Agree options document t pairs schemas)
    (hkey : key ∈ schemas.map Prod.fst) :
    t.Denotes ((pairs.lookup key).getD "")
      (pair (valueText (.str key)) (language options document ((schemas.lookup key).getD .null))) := by
  obtain ⟨S, hS⟩ := Option.isSome_iff_exists.1 (Assoc.lookup_isSome_iff.2 hkey)
  have hrel := h key
  rw [hS] at hrel
  cases hrule : pairs.lookup key with
  | none =>
    rw [hrule] at hrel
    cases hrel
  | some rule =>
    rw [hrule] at hrel
    cases hrel with
    | some hd => simpa [hS] using hd

/-- Pairs and what may follow them between braces. -/
theorem writes_object {t : RuleTable} {rules : List String} {rest : String}
    {Ls : List (Language Char)} {R : Language Char} (h : t.Complete)
    (hrules : List.Forall₂ t.WritesRow rules Ls) (hrest : t.WritesRow rest R)
    (hapart : ∀ text, Grammar.Apart text rest.toList) :
    t.Writes ("\"\x7b\" space " ++ " \",\" space ".intercalate rules ++ rest ++ " \"\x7d\" space")
      (mark "\x7b" * (separated (mark ",") Ls * R) * mark "\x7d") :=
  (readsRow_object h.denotes_space.item hrules hrest hapart).reads

variable {visit : Visit} (hvisit : IsExact options document plain visit)

include hvisit

theorem objectBody_compiled {declared : Json.Fields} {names : List String} {body : String}
    (hdeclared : declaredProperties fields = .ok declared)
    (hrequired : requiredNames fields = .ok names) (hshape : shape fields = .object)
    (hs : SoundSession options document plain busy s) (hhint : plain → HasPlainDigits hint)
    (hkeys : plain → HasReadableKeys document)
    (hreach : Reaches document document (.obj fields)) (hfree : IsFree document busy (.obj fields))
    (hrun : objectBody visit options hint declared names (keyword fields "additionalProperties") s =
      .ok body s') :
    BodyCompiled options document plain busy fields hint s s' body := by
  have hproperties : properties fields = declared := by rw [properties, hdeclared]
  have hrequiredNames : required fields = names := by rw [required, hrequired]
  have hkeysOf : keysOf (.obj fields) = declared.map Prod.fst := by
    rw [keysOf, if_pos hshape, hproperties]
  have hinside : inside document (.obj fields) =
      declared.map Prod.snd ++ additionalSchemas fields := by rw [inside, hshape, ← hproperties]
  obtain ⟨keys, s₁, hsort, h₁⟩ := Work.bind_eq_ok.1 hrun
  obtain ⟨hsorted, rfl⟩ := Work.ofExcept_eq_ok.1 hsort
  obtain ⟨pairs, s₂, hpairs, h₂⟩ := Work.bind_eq_ok.1 h₁
  obtain ⟨extra, s₃, hextra, h₃⟩ := Work.bind_eq_ok.1 h₂
  obtain ⟨rest, s₄, hrest, hlast⟩ := Work.bind_eq_ok.1 h₃
  obtain ⟨rfl, rfl⟩ := Work.pure_eq_ok.1 hlast
  have hnames : propertyNames options fields = keys := by rw [propertyNames, hproperties, hsorted]
  -- the declared pairs
  have hplainKey (hp : plain) : ∀ key ∈ declared.map Prod.fst, HasPlainDigits key :=
    fun key hkey => hkeys hp _ hreach key (hkeysOf ▸ hkey)
  have hnone : Agree options document s.table [] [] := fun _ => .none
  have hpairsDone := pairRules_compiled hvisit hs hhint hnone
    (fun x hx => ⟨fun hp => hplainKey hp x.1 (List.mem_map_of_mem hx),
      hreach.tail (by rw [hinside]; exact List.mem_append_left _ (List.mem_map_of_mem hx)),
      hfree.inside (by rw [hinside]; exact List.mem_append_left _ (List.mem_map_of_mem hx))⟩) hpairs
  -- the additional ones
  have hextraDone := additionalEntry_proceeds hvisit hpairsDone.session hhint hnames
    (fun S hS => ⟨hreach.tail (by rw [hinside]; exact List.mem_append_right _ hS),
      hfree.inside (by rw [hinside]; exact List.mem_append_right _ hS)⟩) hextra
  obtain ⟨additional, hdescribes, hmeaning⟩ := hextraDone.describes
  have hagree := hpairsDone.agree.extend hextraDone.proceeds.extends_
  have hmem {key : String} (hkey : key ∈ keys) : key ∈ (Assoc.ofPairs declared).map Prod.fst :=
    (Options.perm_sortProperties hsorted).mem_iff.1 hkey
  have hdenotes {key : String} (hkey : key ∈ keys) :
      s₃.table.Denotes ((pairs.lookup key).getD "")
        (pair (valueText (.str key)) (language options document (propertySchema fields key))) := by
    rw [propertySchema, hproperties]
    exact hagree.denotes (hmem hkey)
  -- the optional part
  have hentries : Describes s₃.table
      ((keys.filter fun key => !names.contains key).map
        (fun key => (⟨key, (pairs.lookup key).getD "", false⟩ : Entry)) ++ extra)
      ((keys.filter fun key => !names.contains key).map (fun key => (pair (valueText (.str key))
        (language options document (propertySchema fields key)), false)) ++
          extraLanguages additional) := by
    refine List.rel_append ?_ hdescribes
    rw [List.forall₂_map_left_iff, List.forall₂_map_right_iff, List.forall₂_same]
    exact fun key hkey => ⟨hdenotes (List.mem_of_mem_filter hkey), rfl⟩
  obtain ⟨hgrows, hoptional, hapart⟩ := optionalPart_writes hhint hextraDone.proceeds.session.table
    (fun hp entry hentry => by
      rcases List.mem_append.1 hentry with hentry | hentry
      · obtain ⟨key, hkey, rfl⟩ := List.mem_map.1 hentry
        exact hplainKey hp key (Assoc.mem_of_mem_ofPairs (hmem (List.mem_of_mem_filter hkey)))
      · exact hextraDone.keys entry hentry) hentries hrest
  have hproceeds := hextraDone.proceeds.grows hgrows
  have hfirst : List.Forall₂ s₄.table.WritesRow
      ((keys.filter names.contains).map fun key => (pairs.lookup key).getD "")
      ((keys.filter names.contains).map fun key => pair (valueText (.str key))
        (language options document (propertySchema fields key))) := by
    rw [List.forall₂_map_left_iff, List.forall₂_map_right_iff, List.forall₂_same]
    exact fun key hkey =>
      ((hdenotes (List.mem_of_mem_filter hkey)).extend hgrows.table.extends_).item.row
  have hwrites := writes_object hproceeds.session.table.complete hfirst hoptional hapart
  have hextends := hpairsDone.extends_.trans hproceeds.extends_
  refine ⟨hproceeds.session, hextends, hpairsDone.remembers.trans hproceeds.remembers, ?_,
    fun S hS => ?_, fun key hkey => ?_, fun hne => hproceeds.root.trans (hpairsDone.kept hne),
    fun hempty hnone => ?_⟩
  · rw [objectMeaning, hnames, hrequiredNames, ← hmeaning, ← objectLanguage_eq]
    exact hwrites
  · rw [hinside] at hS
    rcases List.mem_append.1 hS with hS | hS
    · obtain ⟨x, hx, rfl⟩ := List.mem_map.1 hS
      exact (hpairsDone.covers x hx).2.extend hproceeds.extends_
    · exact (hextraDone.covers S hS).extend hgrows.table.extends_
  · rw [hkeysOf] at hkey
    obtain ⟨x, hx, rfl⟩ := List.mem_map.1 hkey
    exact (hpairsDone.covers x hx).1.extend hproceeds.extends_
  · have hempty? : emptyProperty? (.obj fields) = declared.lookup "" := by
      rw [emptyProperty?, if_pos hshape, hproperties]
    cases hlookup : declared.lookup "" with
    | none =>
      exact .inl ⟨hproceeds.root.trans (hpairsDone.free hempty hnone hlookup),
        start_of_none (hempty?.trans hlookup)⟩
    | some S =>
      rw [start_of_some (hempty?.trans hlookup)]
      exact .inr ((hpairsDone.rooted hempty hnone S hlookup).extend hproceeds.extends_)

theorem visitObject_compiled (hs : SoundSession options document plain busy s)
    (hhint : plain → HasPlainDigits hint) (hkeys : plain → HasReadableKeys document)
    (hreach : Reaches document document (.obj fields)) (hfree : IsFree document busy (.obj fields))
    (hshape : shape fields = .object)
    (hrun : visitObject visit options ⟨fields, hint, ruleNameFor hint⟩ s = .ok name s') :
    Compiled options document plain busy (.obj fields) hint s s' name := by
  obtain ⟨declared, s₁, hdeclared, h₁⟩ := Work.bind_eq_ok.1 hrun
  obtain ⟨hproperties, rfl⟩ := Work.ofExcept_eq_ok.1 hdeclared
  obtain ⟨names, s₂, hnames, h₂⟩ := Work.bind_eq_ok.1 h₁
  obtain ⟨hrequired, rfl⟩ := Work.ofExcept_eq_ok.1 hnames
  obtain ⟨body, s₃, hbody, hadd⟩ := Work.bind_eq_ok.1 h₂
  have hdone := objectBody_compiled hvisit hproperties hrequired hshape hs hhint hkeys hreach hfree
    hbody
  have hlanguage : language options document (.obj fields) =
      objectMeaning options (language options document) fields := by
    rw [language_eq, meaningStep, hshape]
  exact compiled_addRule hdone.session hdone.extends_ hdone.remembers hhint
    (hlanguage ▸ hdone.writes) (covers_of_inside hdone.inside hdone.keys) hdone.kept hdone.rooted
    hadd

end Objects

end Schema

end SchemaGrammar
