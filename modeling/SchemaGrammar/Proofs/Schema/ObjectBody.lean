import SchemaGrammar.Proofs.Exclusions
import SchemaGrammar.Proofs.Priorities
import SchemaGrammar.Proofs.Schema.Calls
import SchemaGrammar.Proofs.Schema.Objects

set_option autoImplicit false

/-! # The bodies of objects

The body of an object has the declared keys in their order, required ones first, and then additional
pairs. What builds it is looked at twice: first which texts it writes and which rules it leaves in
the table (`Assembled`), then what these texts mean in a grammar that agrees with the table. The
languages of the keys and values are those that their rules have in the grammar, whatever these are,
so that nothing has to be known about the schemas inside (`objectBody_language`). -/

namespace SchemaGrammar

open Grammar (ReadsItem ReadsRow Reads)

/-! ## Grammars that agree with a table -/

namespace Grammar

variable {g : Grammar} {t : RuleTable} {name body : String} {L : Language Char}

/-- Each rule of the table has in the grammar the language of its body. -/
def Agrees (g : Grammar) (t : RuleTable) : Prop :=
  ∀ name body node, t.find? name = some body → RuleTable.Stands t.Knows body node →
    g.language (.rule name) = g.language node

/-- A grammar that has the bodies of a table agrees with it. -/
theorem Holds.agrees (h : g.Holds t) : g.Agrees t := by
  intro name body node hfind hstands
  obtain ⟨tree, htree, hfound⟩ := h.bodies name body hfind
  obtain rfl := (hstands.isBody h.readable).unique htree
  exact language_rule g hfound

/-- What agrees with a table agrees with its beginnings. -/
theorem Agrees.of_extends {t' : RuleTable} (hg : g.Agrees t') (ht : t.Extends t') : g.Agrees t :=
  fun name body node hfind hstands =>
    hg name body node (ht.find? hfind) (hstands.mono fun _ => ht.has)

/-- A rule that is there is an item with its language. -/
theorem readsItem_known (g : Grammar) (hname : t.Knows name) :
    ReadsItem t.Knows (· = g) name (g.language (.rule name)) :=
  readsItem_name hname fun h hh => by rw [hh]

theorem Agrees.language_rule (hg : g.Agrees t) (hfind : t.find? name = some body)
    (hreads : Reads t.Knows (· = g) body L) : g.language (.rule name) = L := by
  obtain ⟨rows, hw, hL⟩ := hreads
  rw [hg name body (ofRows rows) hfind (.inr ⟨rows, hw, rfl⟩), language_ofRows g hw.fits.1, hL g rfl]

theorem Agrees.item (hg : g.Agrees t) (hfind : t.find? name = some body)
    (hreads : Reads t.Knows (· = g) body L) : ReadsItem t.Knows (· = g) name L := by
  rw [← hg.language_rule hfind hreads]
  exact readsItem_known g (RuleTable.has_of_find? hfind)

theorem Agrees.space (hg : g.Agrees t) (hspace : t.find? Builtin.spaceName = some Builtin.space) :
    ReadsItem t.Knows (· = g) "space" Schema.blanks := by
  have hmem : (Builtin.spaceName, Builtin.space) ∈ Builtin.bodies := List.mem_cons_self
  obtain ⟨node, hnode, hbody⟩ := Builtin.exists_node hmem
  have hnone : node.ruleNames = [] := by
    have hall : ∀ node, Builtin.nodes.lookup Builtin.spaceName = some node →
        node.ruleNames = [] := by
      rintro node ⟨⟩
      rfl
    exact hall node hnode
  have hstands (P : String → Prop) : RuleTable.Stands P Builtin.space node :=
    .inl ⟨hbody, by simp [hnone], (Builtin.fits_nodes hnode).counts⟩
  refine readsItem_name (RuleTable.has_of_find? hspace) fun h hh => ?_
  subst hh
  refine (hg Builtin.spaceName _ node hspace (hstands _)).trans ?_
  rw [Schema.blanks, Builtin.languageOf_eq (hstands _)]
  -- blanks refer to no rule, so they are the same in all grammars
  have hsame {g' g'' : Grammar} {text : List Char} (htext : text ∈ g'.language node) :
      text ∈ g''.language node :=
    derives_of_agree (N := fun _ => False) (fun _ _ hfalse => hfalse.elim) htext (by simp [hnone])
  ext text
  exact ⟨hsame, hsame⟩

end Grammar

/-! ## Steps that end well -/

/-- A rule of the table has the body of a built-in one. -/
def RuleTable.HasBuiltin (t : RuleTable) (own slot : String) : Prop :=
  ∃ rule, Builtin.find? own = some rule ∧ t.find? slot = some rule.body

theorem RuleTable.HasBuiltin.extend {t t' : RuleTable} {own slot : String} (h : t.HasBuiltin own slot)
    (ht : t.Extends t') : t'.HasBuiltin own slot := by
  obtain ⟨rule, hrule, hfind⟩ := h
  exact ⟨rule, hrule, ht.find? hfind⟩

theorem RuleTable.HasBuiltin.known {t : RuleTable} {own slot : String} (h : t.HasBuiltin own slot) :
    t.Knows slot := by
  obtain ⟨rule, -, hfind⟩ := h
  exact has_of_find? hfind

/-- Pairs whose names are distinct are kept as they are. -/
theorem Assoc.ofPairs_of_nodup {α : Type} {pairs : List (String × α)}
    (h : (pairs.map Prod.fst).Nodup) : ofPairs pairs = pairs := by
  have hfold : ∀ (pairs done : List (String × α)), ((done ++ pairs).map Prod.fst).Nodup →
      pairs.foldl (fun done pair => set done pair.1 pair.2) done = done ++ pairs := by
    intro pairs
    induction pairs with
    | nil => simp
    | cons pair rest ih =>
      intro done hnodup
      obtain ⟨key, value⟩ := pair
      have hnew : done.lookup key = none := by
        refine lookup_eq_none_iff.2 fun hmem => ?_
        rw [List.map_append, List.nodup_append] at hnodup
        exact hnodup.2.2 _ hmem _ (List.mem_map_of_mem List.mem_cons_self) rfl
      have hset : set done key value = done ++ [(key, value)] := set_of_lookup_eq_none _ hnew
      rw [List.foldl_cons]
      simp only [hset]
      rw [ih _ (by simpa using hnodup), List.append_assoc]
      rfl
  exact hfold pairs [] h

namespace Session

variable {s s' : Session} {name body slot own : String}

theorem Orderly.addRule_ok (hs : s.Orderly False) (hname : RuleTable.Requestable False name)
    (hrun : addRule name body s = .ok slot s') :
    Advances False False s s' ∧ s'.table.find? slot = some body := by
  obtain ⟨t, hadd, rfl⟩ := addRule_eq_ok.1 hrun
  obtain ⟨hadvances, hfind, -⟩ : RuleTable.Advances False False s.table t ∧ _ :=
    hs.table.add hname False.elim False.elim hadd
  exact ⟨hs.withTable hadvances, hfind⟩

theorem Orderly.addNamed_ok (hs : s.Orderly False) (hrun : addNamed own own s = .ok slot s') :
    Advances False False s s' ∧ s'.table.HasBuiltin own slot := by
  obtain ⟨t, hwork, rfl⟩ := onTable_eq_ok.1 hrun
  obtain ⟨rule, hrule, hadd⟩ := RuleTable.addNamed_eq_ok hwork
  have hadds := RuleTable.addsBuiltin_addBuiltinFrom hs.table.coherent hrule
    (RuleTable.escapeName_builtin hrule).1 (.inl rfl) hadd
  have hruns : RuleTable.Runs False False (fun _ => True) _ (RuleTable.addNamed own own) s.table :=
    RuleTable.runs_addNamed hs.table hrule
  exact ⟨hs.withTable ((Work.leads_iff.1 hruns).1 slot t hwork).1, rule, hrule, hadds.find?⟩

end Session

namespace Schema

open Session (Advances)

variable {s s' : Session} {name : String}

/-- Compiling keeps sessions orderly and gives rules that are there. -/
def IsSteady (visit : Visit) : Prop :=
  ∀ schema hint s rule s', s.Orderly False → visit schema hint s = .ok rule s' →
    Advances False False s s' ∧ s'.table.Knows rule

theorem isSteady_visit (options : Options) (depth : Nat) : IsSteady (visit options depth) := by
  intro schema hint s rule s' hs hrun
  have hruns := runs_visit options depth hint hs (Session.supports_anything schema s)
  obtain ⟨hadvances, hvisited⟩ := (Work.leads_iff.1 hruns).1 rule s' hrun
  exact ⟨hadvances.weaken False.elim, hvisited.has⟩

/-! ## The optional part -/

/-- The text of some entries, of which the first has to be there or may be missing. What follows an
    entry has a rule of its own. -/
inductive Chained (t : RuleTable) : Bool → List Entry → String → Prop where
  | last (present : Bool) (entry : Entry) : Chained t present [entry] (entryText present entry)
  | more {present : Bool} {entry : Entry} {rest : List Entry} {following rule : String}
      (others : Chained t false rest following) (stored : t.find? rule = some following) :
      Chained t present (entry :: rest) (entryText present entry ++ " " ++ rule)

/-- The texts of some entries for each place to start at. -/
inductive Started (t : RuleTable) : List Entry → List String → Prop where
  | nil : Started t [] []
  | cons {entry : Entry} {rest : List Entry} {here : String} {others : List String}
      (first : Chained t true (entry :: rest) here) (more : Started t rest others) :
      Started t (entry :: rest) (here :: others)

/-- The text of the optional part. -/
inductive IsOptional (t : RuleTable) (hasRequired : Bool) (entries : List Entry) : String → Prop where
  | nothing (empty : entries = []) : IsOptional t hasRequired entries ""
  | choices {texts : List String} (nonempty : texts ≠ []) (started : Started t entries texts) :
      IsOptional t hasRequired entries (" (" ++ (if hasRequired then
        " \",\" space ( " ++ " | ".intercalate texts ++ " )" else " | ".intercalate texts) ++ " )?")

section Texts

variable {t t' : RuleTable} {present : Bool} {entries : List Entry} {e : String} {es : List String}

theorem Chained.extend (h : Chained t present entries e) (ht : t.Extends t') :
    Chained t' present entries e := by
  induction h with
  | last present entry => exact .last present entry
  | more _ stored ih => exact .more ih (ht.find? stored)

theorem chained_entriesFrom (hne : entries ≠ []) (hs : s.table.WellFormed)
    (hrun : entriesFrom name present entries s = .ok e s') :
    s'.table.WellFormed ∧ s.table.Extends s'.table ∧ Chained s'.table present entries e := by
  induction entries generalizing present s s' e with
  | nil => exact absurd rfl hne
  | cons entry rest ih =>
    rw [entriesFrom_cons] at hrun
    split_ifs at hrun with hempty
    · obtain rfl : rest = [] := by simpa using hempty
      obtain ⟨rfl, rfl⟩ := Work.pure_eq_ok.1 hrun
      exact ⟨hs, .refl _, .last present entry⟩
    · -- the entries behind come first, and get a rule that the text ends with
      obtain ⟨following, s₁, hfollowing, hmore⟩ := Work.bind_eq_ok.1 hrun
      obtain ⟨rule, s₂, hadd, hlast⟩ := Work.bind_eq_ok.1 hmore
      obtain ⟨rfl, rfl⟩ := Work.pure_eq_ok.1 hlast
      obtain ⟨hwf, hextends, hchained⟩ := ih (by simpa using hempty) hs hfollowing
      obtain ⟨t, hadds, rfl⟩ := Session.addRule_eq_ok.1 hadd
      have hadds' := RuleTable.adds_add hwf (subName name (entry.key ++ "-rest")) following
      rw [hadds] at hadds'
      exact ⟨hadds'.wellFormed hwf, hextends.trans hadds'.extends,
        .more (hchained.extend hadds'.extends) hadds'.find?⟩

theorem started_startings (hs : s.table.WellFormed)
    (hrun : startings name entries s = .ok es s') :
    s'.table.WellFormed ∧ s.table.Extends s'.table ∧ Started s'.table entries es := by
  induction entries generalizing s es with
  | nil =>
    obtain ⟨rfl, rfl⟩ := Work.pure_eq_ok.1 hrun
    exact ⟨hs, .refl _, .nil⟩
  | cons entry rest ih =>
    obtain ⟨here, s₁, hhere, hmore⟩ := Work.bind_eq_ok.1 hrun
    obtain ⟨others, s₂, hothers, hlast⟩ := Work.bind_eq_ok.1 hmore
    obtain ⟨rfl, rfl⟩ := Work.pure_eq_ok.1 hlast
    obtain ⟨hwf, hextends, hfirst⟩ := chained_entriesFrom (List.cons_ne_nil _ _) hs hhere
    obtain ⟨hwf', hextends', hstarted⟩ := ih hwf hothers
    exact ⟨hwf', hextends.trans hextends', .cons (hfirst.extend hextends') hstarted⟩

theorem isOptional_optionalPart {hasRequired : Bool} (hs : s.table.WellFormed)
    (hrun : optionalPart name hasRequired entries s = .ok e s') :
    s'.table.WellFormed ∧ s.table.Extends s'.table ∧ IsOptional s'.table hasRequired entries e := by
  rw [optionalPart] at hrun
  by_cases hempty : entries = []
  · subst hempty
    obtain ⟨rfl, rfl⟩ := Work.pure_eq_ok.1 hrun
    exact ⟨hs, .refl _, .nothing rfl⟩
  · rw [if_neg (by simpa using hempty)] at hrun
    obtain ⟨texts, s₁, hstartings, hlast⟩ := Work.bind_eq_ok.1 hrun
    obtain ⟨rfl, rfl⟩ := Work.pure_eq_ok.1 hlast
    obtain ⟨hwf, hextends, hstarted⟩ := started_startings hs hstartings
    refine ⟨hwf, hextends, .choices ?_ hstarted⟩
    rintro rfl
    cases hstarted
    exact hempty rfl

/-- What entries stand for in a grammar. -/
def entryLanguages (g : Grammar) (entries : List Entry) : List (Language Char × Bool) :=
  entries.map fun entry => (g.language (.rule entry.pair), entry.repeats)

variable {g : Grammar} (hg : g.Agrees t)
variable (hspace : t.find? Builtin.spaceName = some Builtin.space)

include hg hspace

theorem Chained.reads (h : Chained t present entries e)
    (hknown : ∀ entry ∈ entries, t.Knows entry.pair) :
    ReadsRow t.Knows (· = g) e (entriesLanguage present (entryLanguages g entries)) := by
  induction h with
  | last present entry =>
    have hrow := readsRow_entry (hg.space hspace) present
      (Grammar.readsItem_known g (hknown entry List.mem_cons_self))
    rw [entryLanguages, List.map_singleton, entriesLanguage, tailLanguage_nil, mul_one]
    exact hrow
  | @more present entry rest following rule _ stored ih =>
    have hrow := readsRow_entry (hg.space hspace) present
      (Grammar.readsItem_known g (hknown entry List.mem_cons_self))
    have hrest := ih fun other hother => hknown other (List.mem_cons_of_mem _ hother)
    rw [entriesLanguage_false] at hrest
    exact hrow.beside (hg.item stored hrest.reads).row

theorem Started.reads (h : Started t entries es) (hknown : ∀ entry ∈ entries, t.Knows entry.pair) :
    ∃ heads, List.Forall₂ (Reads t.Knows (· = g)) es heads ∧
      heads.sum = headLanguage (mark ",") (entryLanguages g entries) := by
  induction h with
  | nil => exact ⟨[], .nil, by rw [entryLanguages, List.map_nil, headLanguage_nil]; rfl⟩
  | cons first _ ih =>
    obtain ⟨heads, hheads, hsum⟩ := ih fun other hother =>
      hknown other (List.mem_cons_of_mem _ hother)
    refine ⟨_, .cons (first.reads hg hspace hknown).reads hheads, ?_⟩
    rw [List.sum_cons, hsum, entryLanguages, List.map_cons, headLanguage_cons]
    rfl

theorem IsOptional.reads {hasRequired : Bool} (h : IsOptional t hasRequired entries e)
    (hknown : ∀ entry ∈ entries, t.Knows entry.pair) :
    ReadsRow t.Knows (· = g) e (optionalLanguage hasRequired (entryLanguages g entries)) ∧
      ∀ text, Grammar.Apart text e.toList := by
  cases h with
  | nothing empty =>
    subst empty
    rw [optionalLanguage, entryLanguages, List.map_nil, headLanguage_nil, mul_zero, add_zero]
    exact ⟨Grammar.readsRow_empty, fun _ => Grammar.apart_of_head (by simp)⟩
  | choices nonempty started =>
    obtain ⟨heads, hheads, hsum⟩ := started.reads hg hspace hknown
    rw [optionalLanguage, ← hsum]
    exact ⟨readsRow_optional (hg.space hspace) hasRequired nonempty hheads,
      fun _ => Grammar.apart_of_head (by simp; decide)⟩

end Texts

/-! ## Pairs -/

/-- Compiling the schema on the way from `s` has given the rule, and the table has got it. -/
def IsVisited (visit : Visit) (schema : Json) (hint : String) (s : Session) (t : RuleTable)
    (rule : String) : Prop :=
  t.Knows rule ∧ ∃ s₁ s₂, Advances False False s s₁ ∧ visit schema hint s₁ = .ok rule s₂ ∧
    s₂.table.Extends t

/-- The rules of a declared pair and of its value. -/
structure IsPair (visit : Visit) (name : String) (s : Session) (t : RuleTable)
    (property : String × Json) (pair value : String) : Prop where
  visited : IsVisited visit property.2 (subName name property.1) s t value
  stored : t.find? pair = some (constant (.str property.1) ++ " space \":\" space " ++ value)

section Pairs

variable {visit : Visit} {t t' : RuleTable} {schema : Json} {hint rule : String}

theorem IsVisited.extend (h : IsVisited visit schema hint s t rule) (ht : t.Extends t') :
    IsVisited visit schema hint s t' rule := by
  obtain ⟨hknown, s₁, s₂, hadvances, hrun, hextends⟩ := h
  exact ⟨ht.has hknown, s₁, s₂, hadvances, hrun, hextends.trans ht⟩

theorem IsVisited.after {s₀ : Session} (h : IsVisited visit schema hint s t rule)
    (hs : Advances False False s₀ s) : IsVisited visit schema hint s₀ t rule := by
  obtain ⟨hknown, s₁, s₂, hadvances, hrun, hextends⟩ := h
  exact ⟨hknown, s₁, s₂, hs.trans hadvances, hrun, hextends⟩

theorem IsPair.extend {property : String × Json} {pair value : String}
    (h : IsPair visit name s t property pair value) (ht : t.Extends t') :
    IsPair visit name s t' property pair value :=
  ⟨h.visited.extend ht, ht.find? h.stored⟩

theorem IsPair.after {s₀ : Session} {property : String × Json} {pair value : String}
    (h : IsPair visit name s t property pair value) (hs : Advances False False s₀ s) :
    IsPair visit name s₀ t property pair value :=
  ⟨h.visited.after hs, h.stored⟩

variable (hvisit : IsSteady visit)

include hvisit

theorem pairRule_ok {property : String × Json} (hs : s.Orderly False)
    (hrun : pairRule visit name property s = .ok rule s') :
    Advances False False s s' ∧ ∃ value, IsPair visit name s s'.table property rule value := by
  obtain ⟨key, schema⟩ := property
  obtain ⟨value, s₁, hvalue, hadd⟩ := Work.bind_eq_ok.1 hrun
  obtain ⟨hadvances, hknown⟩ := hvisit _ _ _ _ _ hs hvalue
  obtain ⟨hadvances', hstored⟩ := hadvances.orderly.addRule_ok
    (requestable_key (show "-kv" ∈ _ by simp) False.elim False.elim).1 hadd
  have hvisited : IsVisited visit schema (subName name key) s s₁.table value :=
    ⟨hknown, s, s₁, .refl hs, hvalue, .refl _⟩
  exact ⟨hadvances.trans hadvances', value, hvisited.extend hadvances'.extends_, hstored⟩

/-- Each property has its pair, as no other one has its name. -/
theorem pairRules_ok {properties : List (String × Json)} {done pairs : List (String × String)}
    (hs : s.Orderly False) (hnames : (properties.map Prod.fst).Nodup)
    (hrun : pairRules visit name properties done s = .ok pairs s') :
    Advances False False s s' ∧
      (∀ key ∉ properties.map Prod.fst, pairs.lookup key = done.lookup key) ∧
      ∀ property ∈ properties, ∃ rule value, pairs.lookup property.1 = some rule ∧
        IsPair visit name s s'.table property rule value := by
  induction properties generalizing done s with
  | nil =>
    obtain ⟨rfl, rfl⟩ := Work.pure_eq_ok.1 hrun
    exact ⟨.refl hs, fun _ _ => rfl, by simp⟩
  | cons property rest ih =>
    obtain ⟨hnew, hrest⟩ := List.nodup_cons.1 hnames
    obtain ⟨rule, s₁, hrule, hmore⟩ := Work.bind_eq_ok.1 hrun
    obtain ⟨hadvances, value, hpair⟩ := pairRule_ok hvisit hs hrule
    obtain ⟨hadvances', hothers, hpairs⟩ := ih hadvances.orderly hrest hmore
    refine ⟨hadvances.trans hadvances', fun key hkey => ?_, fun other hother => ?_⟩
    · rw [List.map_cons, List.mem_cons, not_or] at hkey
      rw [hothers key hkey.2, Assoc.lookup_set, if_neg hkey.1]
    · rcases List.mem_cons.1 hother with rfl | hother
      · refine ⟨rule, value, ?_, hpair.extend hadvances'.extends_⟩
        rw [hothers _ hnew, Assoc.lookup_set, if_pos rfl]
      · obtain ⟨rule', value', hlookup, hpair'⟩ := hpairs other hother
        exact ⟨rule', value', hlookup, hpair'.after hadvances⟩

end Pairs

/-! ## Additional pairs -/

/-- The rules of additional pairs, their keys and their values. -/
structure ExtraRules where
  pair : String
  key : String
  value : String

/-- Are there additional pairs? -/
def admits : Json → Bool
  | .bool true => true
  | .obj _ => true
  | _ => false

/-- The rule for any string but the declared keys. -/
def IsKeyRule (keys : List String) (t : RuleTable) (rule : String) : Prop :=
  if keys.isEmpty then t.HasBuiltin "string" rule
  else ∃ char, t.HasBuiltin "char" char ∧
    t.find? rule = some (Exclusion.body char (Exclusion.keyTrie keys))

/-- The rule for the values of additional pairs. -/
def IsValueRule (visit : Visit) (name : String) (allowed : Json) (s : Session) (t : RuleTable)
    (rule : String) : Prop :=
  match allowed with
  | .obj (field :: rest) =>
    IsVisited visit (.obj (field :: rest)) (subName name "additional" ++ "-value") s t rule
  | _ => t.HasBuiltin "value" rule

/-- The rules of additional pairs are there. -/
structure IsExtra (visit : Visit) (name : String) (keys : List String) (allowed : Json) (s : Session)
    (t : RuleTable) (r : ExtraRules) : Prop where
  key : IsKeyRule keys t r.key
  value : IsValueRule visit name allowed s t r.value
  stored : t.find? r.pair = some (r.key ++ " \":\" space " ++ r.value)

section Extra

variable {visit : Visit} {t t' : RuleTable} {keys : List String} {allowed : Json} {rule : String}

theorem IsKeyRule.extend (h : IsKeyRule keys t rule) (ht : t.Extends t') : IsKeyRule keys t' rule := by
  unfold IsKeyRule at h ⊢
  split_ifs at h ⊢
  · exact h.extend ht
  · obtain ⟨char, hchar, hfind⟩ := h
    exact ⟨char, hchar.extend ht, ht.find? hfind⟩

theorem IsKeyRule.known (h : IsKeyRule keys t rule) : t.Knows rule := by
  unfold IsKeyRule at h
  split_ifs at h
  · exact h.known
  · obtain ⟨char, -, hfind⟩ := h
    exact RuleTable.has_of_find? hfind

theorem IsValueRule.extend (h : IsValueRule visit name allowed s t rule) (ht : t.Extends t') :
    IsValueRule visit name allowed s t' rule := by
  unfold IsValueRule at h ⊢
  split at h
  · exact IsVisited.extend h ht
  · exact RuleTable.HasBuiltin.extend h ht

theorem IsValueRule.known (h : IsValueRule visit name allowed s t rule) : t.Knows rule := by
  unfold IsValueRule at h
  split at h
  · exact h.1
  · exact RuleTable.HasBuiltin.known h

theorem IsExtra.extend {r : ExtraRules} (h : IsExtra visit name keys allowed s t r)
    (ht : t.Extends t') : IsExtra visit name keys allowed s t' r :=
  ⟨h.key.extend ht, h.value.extend ht, ht.find? h.stored⟩

theorem additionalKey_ok (hs : s.Orderly False) (hrun : additionalKey name keys s = .ok rule s') :
    Advances False False s s' ∧ IsKeyRule keys s'.table rule := by
  unfold additionalKey at hrun
  unfold IsKeyRule
  split_ifs at hrun ⊢
  · exact hs.addNamed_ok hrun
  · obtain ⟨body, s₁, hbody, hadd⟩ := Work.bind_eq_ok.1 hrun
    obtain ⟨t, hwork, rfl⟩ := Session.onTable_eq_ok.1 hbody
    obtain ⟨char, t', hchar, hlast⟩ := Work.bind_eq_ok.1 hwork
    obtain ⟨rfl, rfl⟩ := Work.pure_eq_ok.1 hlast
    obtain ⟨hadvances, hbuiltin⟩ :=
      hs.addNamed_ok (Session.onTable_eq_ok.2 ⟨t', hchar, rfl⟩)
    obtain ⟨hadvances', hstored⟩ := hadvances.orderly.addRule_ok
      (requestable_additional (show "-k" ∈ _ by simp) False.elim).1 hadd
    exact ⟨hadvances.trans hadvances', char, hbuiltin.extend hadvances'.extends_, hstored⟩

/-- The pair is put together once its value has a rule. -/
theorem additionalPair_ok {value : String} {entries : List Entry} {s₁ : Session}
    (hadmits : admits allowed = true) (hadvances : Advances False False s s₁)
    (hvalue : IsValueRule visit name allowed s s₁.table value)
    (hrun : additionalPair name keys value s₁ = .ok entries s') :
    Advances False False s s' ∧ ∃ extra : Option ExtraRules, extra.isSome = admits allowed ∧
      (∀ r ∈ extra, IsExtra visit name keys allowed s s'.table r) ∧
      entries = (extra.map fun r => (⟨"*", r.pair, true⟩ : Entry)).toList := by
  obtain ⟨key, s₂, pair, hkey, hpair, rfl⟩ := additionalPair_eq_ok hrun
  obtain ⟨hadvances₁, hkeyRule⟩ := additionalKey_ok hadvances.orderly hkey
  obtain ⟨hadvances₂, hstored⟩ := hadvances₁.orderly.addRule_ok
    (requestable_additional (show "-kv" ∈ _ by simp) False.elim).1 hpair
  refine ⟨hadvances.trans (hadvances₁.trans hadvances₂), some ⟨pair, key, value⟩, hadmits.symm,
    fun r hr => ?_, rfl⟩
  obtain rfl := Option.some.inj hr
  exact ⟨hkeyRule.extend hadvances₂.extends_, hvalue.extend (hadvances₁.trans hadvances₂).extends_,
    hstored⟩

theorem additionalEntry_ok {entries : List Entry} (hvisit : IsSteady visit) (hs : s.Orderly False)
    (hrun : additionalEntry visit name keys allowed s = .ok entries s') :
    Advances False False s s' ∧ ∃ extra : Option ExtraRules, extra.isSome = admits allowed ∧
      (∀ r ∈ extra, IsExtra visit name keys allowed s s'.table r) ∧
      entries = (extra.map fun r => (⟨"*", r.pair, true⟩ : Entry)).toList := by
  rw [additionalEntry_eq] at hrun
  split at hrun
  · obtain ⟨value, s₁, hvalue, hpair⟩ := Work.bind_eq_ok.1 hrun
    obtain ⟨hadvances, hbuiltin⟩ := hs.addNamed_ok hvalue
    exact additionalPair_ok rfl hadvances hbuiltin hpair
  · obtain ⟨value, s₁, hvalue, hpair⟩ := Work.bind_eq_ok.1 hrun
    obtain ⟨hadvances, hbuiltin⟩ := hs.addNamed_ok hvalue
    exact additionalPair_ok rfl hadvances hbuiltin hpair
  · rename_i fields hfields
    obtain ⟨value, s₁, hvalue, hpair⟩ := Work.bind_eq_ok.1 hrun
    obtain ⟨hadvances, hknown⟩ := hvisit _ _ _ _ _ hs hvalue
    refine additionalPair_ok rfl hadvances ?_ hpair
    cases fields with
    | nil => exact absurd rfl hfields
    | cons field rest => exact ⟨hknown, s, s₁, .refl hs, hvalue, .refl _⟩
  · rename_i hbool hempty hfields
    obtain ⟨rfl, rfl⟩ := Work.pure_eq_ok.1 hrun
    have hadmits : admits allowed = false := by
      cases allowed with
      | bool b =>
        cases b with
        | true => exact absurd rfl hbool
        | false => rfl
      | obj fields => exact absurd rfl (hfields fields)
      | _ => rfl
    exact ⟨.refl hs, none, hadmits.symm, by simp, rfl⟩

end Extra

/-! ## Whole bodies -/

/-- The rules that the body of an object is put together from: the declared keys in their order, the
    rules of their pairs and values, and those of additional pairs. -/
structure ObjectRules where
  keys : List String
  pairOf : String → String
  valueOf : String → String
  extra : Option ExtraRules

namespace ObjectRules

/-- The keys that have to be there. -/
def first (r : ObjectRules) (required : List String) : List String :=
  r.keys.filter required.contains

/-- The keys that may be missing. -/
def optional (r : ObjectRules) (required : List String) : List String :=
  r.keys.filter fun key => !required.contains key

/-- The entries of the optional part. -/
def entries (r : ObjectRules) (required : List String) : List Entry :=
  (r.optional required).map (fun key => ⟨key, r.pairOf key, false⟩) ++
    (r.extra.map fun e => (⟨"*", e.pair, true⟩ : Entry)).toList

/-- A declared pair, with the texts that its value has in a grammar. -/
def pairLanguage (r : ObjectRules) (g : Grammar) (key : String) : Language Char :=
  pair (valueText (.str key)) (g.language (.rule (r.valueOf key)))

/-- The additional pairs, with the texts that their keys and values have in a grammar. -/
def extraLanguage (r : ObjectRules) (g : Grammar) : Option (Language Char) :=
  r.extra.map fun e => pair (g.language (.rule e.key)) (g.language (.rule e.value))

end ObjectRules

/-- The rules of an object are there, and each comes from the schema that it is for. -/
structure Assembled (visit : Visit) (name : String) (properties : List (String × Json))
    (additional : Json) (s : Session) (t : RuleTable) (r : ObjectRules) : Prop where
  perm : r.keys.Perm (properties.map Prod.fst)
  pairs : ∀ property ∈ properties,
    IsPair visit name s t property (r.pairOf property.1) (r.valueOf property.1)
  admits : r.extra.isSome = admits additional
  extra : ∀ e ∈ r.extra, IsExtra visit name r.keys additional s t e

section Bodies

variable {visit : Visit} {options : Options} {properties : List (String × Json)}
variable {required : List String} {additional : Json} {body : String}

/-- What building a body comes to. -/
theorem objectBody_ok (hvisit : IsSteady visit) (hs : s.Orderly False)
    (hnames : (properties.map Prod.fst).Nodup)
    (hrun : objectBody visit options name properties required additional s = .ok body s') :
    ∃ r rest, s'.table.WellFormed ∧
      options.sortProperties (properties.map Prod.fst) = .ok r.keys ∧
      Assembled visit name properties additional s s'.table r ∧
      s'.table.find? Builtin.spaceName = some Builtin.space ∧
      IsOptional s'.table (!(r.first required).isEmpty) (r.entries required) rest ∧
      body = "\"\x7b\" space " ++ " \",\" space ".intercalate ((r.first required).map r.pairOf) ++
        rest ++ " \"\x7d\" space" := by
  obtain ⟨keys, s₁, hsort, h₁⟩ := Work.bind_eq_ok.1 hrun
  obtain ⟨hsorted, rfl⟩ := Work.ofExcept_eq_ok.1 hsort
  obtain ⟨pairs, s₂, hpairs, h₂⟩ := Work.bind_eq_ok.1 h₁
  obtain ⟨entries, s₃, hentries, h₃⟩ := Work.bind_eq_ok.1 h₂
  obtain ⟨rest, s₄, hrest, hlast⟩ := Work.bind_eq_ok.1 h₃
  obtain ⟨rfl, rfl⟩ := Work.pure_eq_ok.1 hlast
  rw [Assoc.ofPairs_of_nodup hnames] at hsorted
  obtain ⟨hadvances, -, hdeclared⟩ := pairRules_ok hvisit hs hnames hpairs
  obtain ⟨hadvances', extra, hadmits, hextra, rfl⟩ :=
    additionalEntry_ok hvisit hadvances.orderly hentries
  have horderly := hadvances'.orderly
  obtain ⟨hwf, hextends, hoptional⟩ := isOptional_optionalPart horderly.table.coherent.wellFormed hrest
  -- each key has one schema, so its value has one rule
  have hvalues (key : String) : ∃ value, ∀ property ∈ properties, property.1 = key →
      IsPair visit name s s₂.table property ((pairs.lookup key).getD "") value := by
    by_cases hkey : ∃ property ∈ properties, property.1 = key
    · obtain ⟨property, hproperty, rfl⟩ := hkey
      obtain ⟨rule, value, hlookup, hpair⟩ := hdeclared property hproperty
      refine ⟨value, fun other hother hsame => ?_⟩
      obtain rfl := List.inj_on_of_nodup_map hnames hother hproperty hsame
      rw [hlookup]
      exact hpair
    · exact ⟨"", fun property hproperty hname => absurd ⟨property, hproperty, hname⟩ hkey⟩
  choose valueOf hvalueOf using hvalues
  have hgrown := hadvances'.extends_.trans hextends
  refine ⟨⟨keys, fun key => (pairs.lookup key).getD "", valueOf, extra⟩, rest, hwf, hsorted,
    ⟨Options.perm_sortProperties hsorted, fun property hproperty => ?_, hadmits, fun e he => ?_⟩,
    hextends.find? horderly.table.coherent.space, hoptional, rfl⟩
  · exact (hvalueOf property.1 property hproperty rfl).extend hgrown
  · have hthere := (hextra e he).extend hextends
    refine ⟨hthere.key, ?_, hthere.stored⟩
    have hvalue := hthere.value
    unfold IsValueRule at hvalue ⊢
    split at hvalue
    · exact hvalue.after hadvances
    · exact hvalue

variable {r : ObjectRules} {t : RuleTable} {g : Grammar}

section Meaning

variable (h : Assembled visit name properties additional s t r) (hg : g.Agrees t)
variable (hspace : t.find? Builtin.spaceName = some Builtin.space)

include h hg hspace

/-- The declared pairs mean what their keys and values mean. -/
theorem Assembled.language_pair {key : String} (hkey : key ∈ r.keys) :
    g.language (.rule (r.pairOf key)) = r.pairLanguage g key := by
  obtain ⟨property, hproperty, rfl⟩ := List.mem_map.1 (h.perm.mem_iff.1 hkey)
  have hpair := h.pairs property hproperty
  exact hg.language_rule hpair.stored (readsRow_pair (hg.space hspace) property.1
    (Grammar.readsItem_known g hpair.visited.1)).reads

/-- The additional pairs mean what their keys and values mean. -/
theorem Assembled.language_extra {e : ExtraRules} (he : e ∈ r.extra) :
    g.language (.rule e.pair) = pair (g.language (.rule e.key)) (g.language (.rule e.value)) := by
  have hextra := h.extra e he
  exact hg.language_rule hextra.stored (readsRow_additional (hg.space hspace)
    (Grammar.readsItem_known g hextra.key.known)
    (Grammar.readsItem_known g hextra.value.known)).reads

theorem Assembled.entryLanguages_eq (required : List String) :
    entryLanguages g (r.entries required) =
      (r.optional required).map (fun key => (r.pairLanguage g key, false)) ++
        extraLanguages (r.extraLanguage g) := by
  rw [entryLanguages, ObjectRules.entries, List.map_append, List.map_map]
  refine congrArg₂ _ (List.map_congr_left fun key hkey => ?_) ?_
  · exact congrArg (·, false) (h.language_pair hg hspace (List.mem_of_mem_filter hkey))
  · rw [extraLanguages, ObjectRules.extraLanguage]
    cases hextra : r.extra with
    | none => rfl
    | some e => exact congrArg (fun L => [(L, true)]) (h.language_extra hg hspace hextra)

/-- The text of the body is read as the objects with the keys in their order. -/
theorem Assembled.reads_body {rest : String}
    (hrest : IsOptional t (!(r.first required).isEmpty) (r.entries required) rest) :
    ReadsRow t.Knows (· = g)
      ("\"\x7b\" space " ++ " \",\" space ".intercalate ((r.first required).map r.pairOf) ++ rest ++
        " \"\x7d\" space")
      (objectLanguage (r.pairLanguage g) (r.first required) (r.optional required)
        ((r.extraLanguage g).getD 0)) := by
  have hpairOf {key : String} (hkey : key ∈ r.keys) : t.Knows (r.pairOf key) := by
    obtain ⟨property, hproperty, rfl⟩ := List.mem_map.1 (h.perm.mem_iff.1 hkey)
    exact RuleTable.has_of_find? (h.pairs property hproperty).stored
  have hknown : ∀ entry ∈ r.entries required, t.Knows entry.pair := by
    intro entry hentry
    rcases List.mem_append.1 hentry with hentry | hentry
    · obtain ⟨key, hkey, rfl⟩ := List.mem_map.1 hentry
      exact hpairOf (List.mem_of_mem_filter hkey)
    · obtain ⟨e, he, rfl⟩ : ∃ e ∈ r.extra, (⟨"*", e.pair, true⟩ : Entry) = entry := by
        simpa using hentry
      exact RuleTable.has_of_find? (h.extra e he).stored
  obtain ⟨hreads, hapart⟩ := hrest.reads hg hspace hknown
  have hfirst : List.Forall₂ (ReadsRow t.Knows (· = g)) ((r.first required).map r.pairOf)
      ((r.first required).map (r.pairLanguage g)) := by
    rw [List.forall₂_map_left_iff, List.forall₂_map_right_iff, List.forall₂_same]
    intro key hkey
    have hmem := List.mem_of_mem_filter hkey
    rw [← h.language_pair hg hspace hmem]
    exact (Grammar.readsItem_known g (hpairOf hmem)).row
  have hrow := readsRow_object (hg.space hspace) hfirst hreads hapart
  rw [h.entryLanguages_eq hg hspace, objectLanguage_eq] at hrow
  exact hrow

end Meaning

/-- Of the required names only those of declared keys count, and only whether they are there. -/
theorem objectBody_congr {others : List String}
    (hsame : ∀ key ∈ properties.map Prod.fst, key ∈ others ↔ key ∈ required) :
    objectBody visit options name properties others additional =
      objectBody visit options name properties required additional := by
  unfold objectBody
  cases hsort : options.sortProperties ((Assoc.ofPairs properties).map Prod.fst) with
  | error e => rfl
  | ok keys =>
    have hcontains {key : String} (hkey : key ∈ keys) :
        others.contains key = required.contains key := by
      have hmem := Assoc.mem_of_mem_ofPairs ((Options.perm_sortProperties hsort).mem_iff.1 hkey)
      rw [Bool.eq_iff_iff, List.contains_iff_mem, List.contains_iff_mem]
      exact hsame key hmem
    have hfirst : keys.filter others.contains = keys.filter required.contains :=
      List.filter_congr fun key hkey => hcontains hkey
    have hoptional : (keys.filter fun key => !others.contains key) =
        keys.filter fun key => !required.contains key :=
      List.filter_congr fun key hkey => by rw [hcontains hkey]
    have hread (work : List String → CompileM String) :
        (Session.orFail (.ok keys) >>= work) = work keys := rfl
    rw [hread, hread, hfirst, hoptional]

end Bodies

/-- **Object bodies are exact.** The body of an object has the declared keys in an order, which is by
    priority where these are numbers, ties in the order of declaration. In every grammar that agrees
    with the table it is read as the objects that have all required keys, then some of the other ones
    in their order, then any number of additional pairs, if these are allowed. A declared pair is the
    key with what the rule of its schema has in the grammar, an additional one has the languages of
    the rules for its key and its value. Of the required names it only matters which declared ones are
    among them. -/
theorem objectBody_language {options : Options} {depth : Nat} {properties : List (String × Json)}
    {required : List String} {additional : Json} {body : String} (hs : s.Orderly False)
    (hnames : (properties.map Prod.fst).Nodup)
    (hrun : objectBody (visit options depth) options name properties required additional s =
      .ok body s') :
    ∃ r : ObjectRules,
      Assembled (visit options depth) name properties additional s s'.table r ∧
      (options.HasNumbers → r.keys.Pairwise fun a b =>
        options.precedence (properties.map Prod.fst) a <
          options.precedence (properties.map Prod.fst) b) ∧
      (∀ g : Grammar, g.Agrees s'.table → ∃ node, RuleTable.Stands s'.table.Knows body node ∧
        g.language node = objectLanguage
          (fun key => pair (valueText (.str key)) (g.language (.rule (r.valueOf key))))
          (r.keys.filter required.contains) (r.keys.filter fun key => !required.contains key)
          ((r.extra.map fun e =>
            pair (g.language (.rule e.key)) (g.language (.rule e.value))).getD 0)) ∧
      ∀ others : List String, (∀ key ∈ properties.map Prod.fst, key ∈ others ↔ key ∈ required) →
        objectBody (visit options depth) options name properties others additional s =
          .ok body s' := by
  obtain ⟨r, rest, -, hsorted, hassembled, hspace, hrest, rfl⟩ :=
    objectBody_ok (isSteady_visit options depth) hs hnames hrun
  refine ⟨r, hassembled, fun hpriorities => ?_, fun g hg => ?_,
    fun others hsame => by rw [objectBody_congr hsame, hrun]⟩
  · exact Options.pairwise_sortProperties hpriorities hnames hsorted
  obtain ⟨rows, hw, hL⟩ := (hassembled.reads_body hg hspace hrest).reads
  exact ⟨_, .inr ⟨rows, hw, rfl⟩, (Grammar.language_ofRows g hw.fits.1).trans (hL g rfl)⟩

/-- The property `b` has a priority. -/
def preferB : Options :=
  { Options.standard with priorities := .obj [("b", .num (.whole 0))] }

/-- The properties `a` and `b`. -/
def propertiesAB : List (String × Json) :=
  [("a", .obj [("type", .str "null")]), ("b", .obj [("type", .str "boolean")])]

theorem hasNumbers_preferB : preferB.HasNumbers :=
  Options.hasNumbers_of_fields rfl (by simp [Json.number?])

theorem precedence_preferB :
    preferB.precedence ["a", "b"] "b" < preferB.precedence ["a", "b"] "a" := by
  have hlast : preferB.standing "a" = ⊤ := rfl
  have hfirst : preferB.standing "b" = (((0 / 1 : ℚ) : WithTop ℚ) : WithBot (WithTop ℚ)) := by
    simp [Options.standing, Options.priority, preferB, fieldsFor, Options.standingOf,
      Json.Fields.get?, Json.number?, Number.value, Number.rank, Number.Rank.value]
  rw [Options.precedence, Options.precedence, Prod.Lex.toLex_lt_toLex, hlast, hfirst]
  exact .inl (WithBot.coe_lt_coe.2 (WithTop.coe_lt_top _))

/-- The second property comes first and may be missing, the first one has to be there, and there may
    be additional pairs; the other required name is not declared. -/
theorem objectBody_preferred : ∃ body s',
    objectBody (visit preferB 1) preferB "" propertiesAB ["c", "a"] (.bool true) (.new []) =
        .ok body s' ∧
      body = "\"\x7b\" space a-kv ( \",\" space ( b-kv b-rest | additional-kv " ++
        "( \",\" space additional-kv )* ) )? \"\x7d\" space" ∧
      ∃ r : ObjectRules, r.keys = ["b", "a"] ∧ r.extra.isSome = true ∧
        ∀ g : Grammar, g.Agrees s'.table → ∃ node, RuleTable.Stands s'.table.Knows body node ∧
          g.language node = objectLanguage
            (fun key => pair (valueText (.str key)) (g.language (.rule (r.valueOf key)))) ["a"] ["b"]
            ((r.extra.map fun e =>
              pair (g.language (.rule e.key)) (g.language (.rule e.value))).getD 0) := by
  obtain ⟨s', hrun⟩ : ∃ s', objectBody (visit preferB 1) preferB "" propertiesAB ["c", "a"]
      (.bool true) (.new []) = .ok ("\"\x7b\" space a-kv ( \",\" space ( b-kv b-rest | additional-kv " ++
        "( \",\" space additional-kv )* ) )? \"\x7d\" space") s' :=
    Work.exists_of_result? (by decide +kernel)
  obtain ⟨r, hassembled, hsorted, hlanguage, -⟩ :=
    objectBody_language (Session.orderly_new []) (by decide) hrun
  have hkeys : r.keys = ["b", "a"] := by
    have hperm : r.keys.Perm ["b", "a"] := hassembled.perm.trans (.swap "b" "a" [])
    exact hperm.eq_of_pairwise (fun _ _ _ _ hab hba => absurd hab hba.asymm)
      (hsorted hasNumbers_preferB) (List.pairwise_pair.2 precedence_preferB)
  refine ⟨_, s', hrun, rfl, r, hkeys, hassembled.admits, fun g hg => ?_⟩
  obtain ⟨node, hstands, hnode⟩ := hlanguage g hg
  rw [hkeys] at hnode
  exact ⟨node, hstands, hnode⟩

end Schema

end SchemaGrammar
