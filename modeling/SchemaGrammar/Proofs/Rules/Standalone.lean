import SchemaGrammar.Proofs.Rules.Finished

set_option autoImplicit false

/-! # Expressions over the built-in rules

An expression that refers to built-in rules only has a language by itself: that of the rule `root`
in the grammar of this expression and the catalog (`languageOf`). In every complete table that has
the built-in rules it refers to, it has that language too. -/

namespace SchemaGrammar

open Grammar (Written IsBody IsReadable Holds)

namespace Builtin

/-- An expression as the root of a grammar with the whole catalog. -/
def standalone (e : String) : RuleTable :=
  ⟨("root", e) :: bodies, []⟩

/-- The language of an expression over the built-in rules. -/
def languageOf (e : String) : Language Char :=
  {text | ∃ g, Grammar.ofText (standalone e).text = .ok g ∧ text ∈ g.language (.rule "root")}

theorem root_notMem_names : "root" ∉ names := by
  decide

theorem find?_standalone (e name : String) :
    (standalone e).find? name = if name = "root" then some e else bodies.lookup name := by
  rw [RuleTable.find?, standalone, Assoc.lookup_cons]

theorem nodup_names : names.Nodup := by
  rw [names, names_nodes]
  exact nodup_nodes

theorem has_standalone {e name : String} :
    (standalone e).has name = true ↔ name = "root" ∨ name ∈ names := by
  rw [RuleTable.has_iff_mem]
  exact List.mem_cons

theorem wellFormed_standalone (e : String) : (standalone e).WellFormed :=
  ⟨List.nodup_cons.2 ⟨root_notMem_names, nodup_names⟩, by simp [standalone]⟩

theorem holdsCatalog_standalone (e : String) : (standalone e).HoldsCatalog := by
  intro name node hnode _
  have hname := RuleTable.mem_names_of_lookup hnode
  have hroot : name ≠ "root" := by
    rintro rfl
    exact root_notMem_names hname
  obtain ⟨⟨own, body⟩, hmem, rfl⟩ := List.mem_map.1 hname
  obtain ⟨tree, htree, hbody⟩ := exists_node hmem
  obtain rfl : tree = node := Option.some.inj (htree.symm.trans hnode)
  refine ⟨⟨body, ?_, hbody⟩, fun other hother => ?_⟩
  · rw [find?_standalone, if_neg hroot]
    exact Assoc.lookup_of_mem nodup_names hmem
  · exact has_standalone.2 (.inr ((fits_nodes hnode).names other hother))

theorem readable_standalone (e : String) : ∀ name, (standalone e).has name = true →
    IsReadable name := by
  intro name hname
  rcases has_standalone.1 hname with rfl | hname
  · decide
  · exact readable_names name hname

/-- The language of an expression is that of its tree. -/
theorem languageOf_eq {e : String} {node : Node} (h : RuleTable.Stands (· ∈ names) e node) :
    languageOf e = Grammar.language nodes node := by
  have hbody : IsBody e node := h.isBody readable_names
  let tree (name : String) : Node := if name = "root" then node else (nodes.lookup name).getD node
  have hbodies : ∀ name body, (standalone e).find? name = some body →
      IsReadable name ∧ IsBody body (tree name) := by
    intro name body hfind
    refine ⟨readable_standalone e name (RuleTable.has_of_find? hfind), ?_⟩
    rw [find?_standalone] at hfind
    by_cases hroot : name = "root"
    · rw [if_pos hroot] at hfind
      obtain rfl := Option.some.inj hfind
      simpa [tree, hroot] using hbody
    · rw [if_neg hroot] at hfind
      obtain ⟨own, hown, hread⟩ := exists_node (Assoc.mem_of_lookup hfind)
      simpa [tree, hroot, hown] using hread
  have hrefs : ∀ name, (standalone e).has name = true → ∀ other ∈ (tree name).ruleNames,
      (standalone e).has other = true := by
    intro name hname other hother
    refine has_standalone.2 (.inr ?_)
    simp only [tree] at hother
    split_ifs at hother with hroot
    · exact h.fits.names other hother
    · cases hlookup : nodes.lookup name with
      | none =>
        rw [hlookup] at hother
        exact h.fits.names other hother
      | some own =>
        rw [hlookup] at hother
        exact (fits_nodes hlookup).names other hother
  have htext := RuleTable.ofText_text (wellFormed_standalone e) hbodies hrefs
  obtain ⟨g, hg⟩ : ∃ g : Grammar, (standalone e).names.map (fun name => (name, tree name)) = g :=
    ⟨_, rfl⟩
  rw [hg] at htext
  have hfind : ∀ name, (standalone e).has name = true → g.find? name = some (tree name) := by
    intro name hname
    rw [← hg, Grammar.find?, RuleTable.lookup_map_pair, if_pos (RuleTable.mem_names_iff.2 hname)]
  have hholds : g.Holds (standalone e) :=
    ⟨readable_standalone e, fun name body hname => ⟨tree name, (hbodies name body hname).2,
      hfind name (RuleTable.has_of_find? hname)⟩⟩
  have hroot : g.find? "root" = some node := hfind "root" (has_standalone.2 (.inl rfl))
  have hlanguage : g.language (.rule "root") = Grammar.language nodes node := by
    rw [Grammar.language_rule g hroot]
    exact RuleTable.language_builtin hholds (holdsCatalog_standalone e) fun name hname =>
      ⟨h.fits.names name hname, has_standalone.2 (.inr (h.fits.names name hname))⟩
  rw [← hlanguage]
  ext text
  constructor
  · rintro ⟨g', hg', hmem⟩
    obtain rfl := Except.ok.inj (htext.symm.trans hg')
    exact hmem
  · exact fun hmem => ⟨g, htext, hmem⟩

end Builtin

namespace RuleTable

variable {t t' : RuleTable} {name body e : String}

/-- A built-in rule that the table has. -/
def KnowsBuiltin (t : RuleTable) (name : String) : Prop :=
  name ∈ Builtin.names ∧ t.has name = true

/-- An expression over built-in rules has in every table the language that it has by itself. -/
theorem Complete.language_eq {g : Grammar} {node : Node} (h : t.Complete) (hg : g.Holds t)
    (hstands : Stands t.KnowsBuiltin e node) : g.language node = Builtin.languageOf e := by
  rw [Builtin.languageOf_eq (hstands.mono fun _ hn => hn.1)]
  exact language_builtin hg h.holdsCatalog hstands.fits.names

/-- The built-in rules of a table. -/
def builtins (t : RuleTable) : RuleTable :=
  ⟨t.rules.filter fun x => decide (x.1 ∈ Builtin.names), []⟩

theorem find?_builtins (t : RuleTable) (name : String) :
    t.builtins.find? name = if name ∈ Builtin.names then t.find? name else none := by
  rw [find?, find?, builtins]
  induction t.rules with
  | nil => simp
  | cons pair rest ih =>
    rw [List.filter_cons, Assoc.lookup_cons]
    by_cases hpair : pair.1 ∈ Builtin.names
    · rw [if_pos (by simpa using hpair), Assoc.lookup_cons, ih]
      by_cases hname : name = pair.1
      · simp [hname, hpair]
      · simp [hname]
    · rw [if_neg (by simpa using hpair), ih]
      by_cases hname : name = pair.1
      · simp [hname, hpair]
      · simp [hname]

theorem knows_builtins : t.builtins.Knows name ↔ t.KnowsBuiltin name := by
  rw [Knows, KnowsBuiltin, has, find?_builtins]
  split_ifs with hname <;> simp [hname, has]

theorem HoldsCatalog.builtins (h : t.HoldsCatalog) : t.builtins.HoldsCatalog := by
  intro name node hnode hhas
  obtain ⟨hname, hthere⟩ := knows_builtins.1 hhas
  obtain ⟨⟨body, hbody, hread⟩, hothers⟩ := h name node hnode hthere
  refine ⟨⟨body, by rw [find?_builtins, if_pos hname, hbody], hread⟩, fun other hother => ?_⟩
  exact knows_builtins.2 ⟨(Builtin.fits_nodes hnode).names other hother, hothers other hother⟩

theorem HoldsCatalog.writesItem_builtin (h : t.HoldsCatalog) (hname : t.KnowsBuiltin name) :
    t.builtins.WritesItem name (Grammar.language Builtin.nodes (.rule name)) := by
  refine ⟨.rule name, .name (knows_builtins.2 hname), fun g hg => ?_⟩
  refine language_builtin hg h.builtins fun other hother => ?_
  obtain rfl : other = name := by simpa [Node.ruleNames] using hother
  exact ⟨hname.1, knows_builtins.2 hname⟩

/-- What is written over the built-in rules alone has in the table the language that it has by
    itself. -/
theorem Complete.writes (h : t.Complete) (he : t.builtins.IsExpression e) :
    t.Writes e (Builtin.languageOf e) := by
  obtain ⟨L, rows, hw, -⟩ := he
  have hbuiltin : Written t.KnowsBuiltin (.rows rows) e.toList := hw.mono fun _ => knows_builtins.1
  refine ⟨rows, hbuiltin.mono fun _ hn => hn.2, fun g hg => ?_⟩
  rw [← Grammar.language_ofRows g hw.fits.1]
  exact h.language_eq hg (.inr ⟨rows, hbuiltin, rfl⟩)

/-- A rule whose body is an expression over built-in rules. -/
theorem Complete.denotes_body {node : Node} (h : t.Complete) (hfind : t.find? name = some body)
    (hstands : Stands t.KnowsBuiltin body node) :
    t.Denotes name (Builtin.languageOf body) := by
  refine ⟨has_of_find? hfind, fun g hg => ?_⟩
  obtain ⟨tree, htree, hbody⟩ := hg.bodies name body hfind
  have hread : IsBody body node := hstands.isBody fun n hn => Builtin.readable_names n hn.1
  obtain rfl := hread.unique htree
  rw [Grammar.language_rule g hbody, h.language_eq hg hstands]

theorem Complete.denotes_space (h : t.Complete) :
    t.Denotes Builtin.spaceName (Builtin.languageOf Builtin.space) := by
  have hspace : (Builtin.spaceName, Builtin.space) ∈ Builtin.bodies := List.mem_cons_self
  obtain ⟨node, hnode, hbody⟩ := Builtin.exists_node hspace
  have hothers := (h.holdsCatalog _ node hnode (has_of_find? h.space)).2
  exact h.denotes_body h.space (.inl ⟨hbody, fun n hn =>
    ⟨(Builtin.fits_nodes hnode).names n hn, hothers n hn⟩, (Builtin.fits_nodes hnode).counts⟩)

theorem AddsBuiltin.denotes {rule : Builtin} {own slot : String}
    (h : AddsBuiltin True (fun _ => False) t name rule slot t') (hown : Builtin.find? own = some rule) :
    t'.Denotes slot (Builtin.languageOf rule.body) := by
  obtain ⟨node, hnode, hbody⟩ := Builtin.exists_node (mem_bodies hown)
  have hfits := Builtin.fits_nodes hnode
  have hcomplete : t'.Complete := h.coherent
  refine hcomplete.denotes_body h.find? (.inl ⟨hbody, fun n hn => ⟨hfits.names n hn, ?_⟩,
    hfits.counts⟩)
  rcases Builtin.ruleNames_subset hown hnode n hn with rfl | hneed
  · exact has_of_find? h.coherent.space
  · exact h.needs n hneed

theorem addNamed_eq_ok {own slot : String} (hrun : RuleTable.addNamed name own t = .ok slot t') :
    ∃ rule, Builtin.find? own = some rule ∧ addBuiltin name rule t = .ok slot t' := by
  obtain ⟨rule, t₁, hget, hadd⟩ := Work.bind_eq_ok.1 hrun
  obtain ⟨hgot, rfl⟩ := Work.ofExcept_eq_ok.1 hget
  exact ⟨rule, Builtin.find?_of_get hgot, hadd⟩

end RuleTable

end SchemaGrammar
