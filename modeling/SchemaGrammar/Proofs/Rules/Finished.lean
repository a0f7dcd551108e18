import SchemaGrammar.Proofs.Rules.Catalog

set_option autoImplicit false

/-! # Finished tables

A complete table is a coherent one in which nothing is pending. If its names can be read, its text
is read as a grammar that holds its bodies, has natural counts and is not left recursive
(`Complete.exists_grammar`). In such a grammar the built-in rules have the languages that they have
by themselves, so an expression over them means the same in every table (`Complete.writes`). -/

namespace SchemaGrammar

open Grammar (Written IsBody IsReadable Holds LeftRecursive)

namespace RuleTable

/-- A coherent table in which nothing is pending. -/
abbrev Complete (t : RuleTable) : Prop :=
  t.Coherent True fun _ => False

/-! ## Claimed names -/

section Claimed

variable {t : RuleTable} {sorted : Prop} {pending : String → Prop}

/-- Claims say nothing about bodies. -/
theorem Coherent.claim (h : t.Coherent sorted pending) {reserved : List String}
    (hwf : RuleTable.WellFormed ⟨t.rules, reserved⟩)
    (hclaimed : ∀ name ∈ reserved, Builtin.find? name = none) :
    RuleTable.Coherent sorted pending ⟨t.rules, reserved⟩ :=
  ⟨hwf, h.storable, h.space, h.builtin, hclaimed, h.ordered⟩

theorem Coherent.reserve (h : t.Coherent sorted pending) {name : String}
    (hname : Builtin.find? (escapeName name) = none) : (t.reserve name).2.Coherent sorted pending := by
  refine h.claim (wellFormed_reserve h.wellFormed name) fun other hother => ?_
  rcases List.mem_cons.1 hother with rfl | hother
  · exact (isSlot_reserve t name).find?_eq_none hname
  · exact h.claimed other hother

theorem Coherent.release (h : t.Coherent sorted pending) (name : String) :
    (t.release name).Coherent sorted pending :=
  h.claim (wellFormed_release h.wellFormed name) fun other hother =>
    h.claimed other (List.mem_of_mem_filter hother)

end Claimed

/-! ## The order of rules -/

/-- The place of a rule in a table. -/
def place (t : RuleTable) (name : String) : Nat :=
  (t.rules.map Prod.fst).idxOf name

theorem place_lt {t : RuleTable} (ht : t.WellFormed) {front back : List (String × String)}
    {name body other : String} (hrules : t.rules = front ++ (name, body) :: back)
    (hother : other ∈ front.map Prod.fst) : t.place other < t.place name := by
  have hnodup := ht.nodup
  rw [hrules, List.map_append, List.map_cons] at hnodup
  have hout : name ∉ front.map Prod.fst := fun hmem =>
    (List.nodup_append.1 hnodup).2.2 name hmem name List.mem_cons_self rfl
  rw [place, place, hrules, List.map_append, List.map_cons, List.idxOf_append_of_mem hother,
    List.idxOf_append_of_notMem hout, List.idxOf_cons_self]
  have hlt := List.idxOf_lt_length_of_mem hother
  omega

/-- The rules that a body of a complete table may refer to: those in front of it and built-in
    ones. -/
def MayUse (t : RuleTable) (name other : String) : Prop :=
  t.has other = true ∧ (t.place other < t.place name ∨ other ∈ Builtin.names)

theorem Complete.exists_node {t : RuleTable} (h : t.Complete) (name : String) :
    ∃ node, ∀ body, t.find? name = some body → Stands (t.MayUse name) body node := by
  cases hfind : t.find? name with
  | none => exact ⟨.seq [], by simp⟩
  | some body =>
    obtain ⟨front, back, hrules⟩ := List.append_of_mem (Assoc.mem_of_lookup hfind)
    obtain ⟨node, hnode⟩ := h.ordered trivial front name body back hrules
    refine ⟨node, fun other hother => ?_⟩
    obtain rfl := Option.some.inj hother
    refine hnode.mono fun n hn => ⟨by simpa using hn.1, hn.2.imp_left ?_⟩
    exact place_lt h.wellFormed hrules

/-! ## Built-in rules -/

/-- The built-in names of a table hold the built-in bodies with all that these refer to. -/
def HoldsCatalog (t : RuleTable) : Prop :=
  ∀ name node, Builtin.nodes.lookup name = some node → t.has name = true →
    (∃ body, t.find? name = some body ∧ IsBody body node) ∧
      ∀ other ∈ node.ruleNames, t.has other = true

theorem mem_names_of_lookup {name : String} {node : Node}
    (h : Builtin.nodes.lookup name = some node) : name ∈ Builtin.names := by
  rw [Builtin.names, Builtin.names_nodes]
  exact List.mem_map.2 ⟨_, Assoc.mem_of_lookup h, rfl⟩

theorem Coherent.holdsCatalog {t : RuleTable} {sorted : Prop}
    (h : t.Coherent sorted fun _ => False) : t.HoldsCatalog := by
  intro name node hnode hhas
  have hspace : t.has Builtin.spaceName = true := has_of_find? h.space
  obtain ⟨⟨other, body⟩, hmem, rfl⟩ := List.mem_map.1 (mem_names_of_lookup hnode)
  obtain ⟨tree, htree, hbody⟩ := Builtin.exists_node hmem
  obtain rfl : tree = node := Option.some.inj (htree.symm.trans hnode)
  rcases List.mem_cons.1 hmem with hpair | hmem
  · obtain ⟨rfl, rfl⟩ := Prod.mk.inj hpair
    have hnone : ∀ node, Builtin.nodes.lookup Builtin.spaceName = some node →
        node.ruleNames = [] := by
      rintro node ⟨⟩
      rfl
    exact ⟨⟨_, h.space, hbody⟩, by simp [hnone tree hnode]⟩
  · obtain ⟨⟨own, rule⟩, hrule, hpair⟩ := List.mem_map.1 hmem
    obtain ⟨rfl, rfl⟩ := Prod.mk.inj hpair
    have hnodup : (Builtin.catalog.map Prod.fst).Nodup := by decide
    have hfound : Builtin.find? own = some rule := Assoc.lookup_of_mem hnodup hrule
    obtain ⟨hcontent, hneeds⟩ := h.builtin own rule hfound hhas
    refine ⟨⟨_, hcontent, hbody⟩, fun n hn => ?_⟩
    rcases Builtin.ruleNames_subset hfound hnode n hn with rfl | hneed
    · exact hspace
    · simpa using hneeds n hneed

section Builtin

variable {g : Grammar} {t : RuleTable}

/-- A grammar has the built-in trees under their names. -/
theorem holds_builtin (hg : g.Holds t) (ht : t.HoldsCatalog) {name : String}
    (hname : name ∈ Builtin.names) (hhas : t.has name = true) :
    ∃ node, Builtin.nodes.lookup name = some node ∧ g.find? name = some node ∧
      ∀ other ∈ node.ruleNames, other ∈ Builtin.names ∧ t.has other = true := by
  obtain ⟨⟨own, content⟩, hmem, rfl⟩ := List.mem_map.1 hname
  obtain ⟨node, hnode, -⟩ := Builtin.exists_node hmem
  obtain ⟨⟨body, hbody, hread⟩, hothers⟩ := ht own node hnode hhas
  obtain ⟨tree, htree, hfind⟩ := hg.bodies own body hbody
  obtain rfl := hread.unique htree
  exact ⟨node, hnode, hfind, fun other hother =>
    ⟨(Builtin.fits_nodes hnode).names other hother, hothers other hother⟩⟩

/-- What refers only to built-in rules has the language that it has with these alone. -/
theorem language_builtin (hg : g.Holds t) (ht : t.HoldsCatalog) {node : Node}
    (hnode : ∀ name ∈ node.ruleNames, name ∈ Builtin.names ∧ t.has name = true) :
    g.language node = Grammar.language Builtin.nodes node := by
  ext text
  rw [Grammar.mem_language, Grammar.mem_language]
  constructor
  · intro h
    refine Grammar.derives_of_agree ?_ h hnode
    rintro name body ⟨hname, hhas⟩ hfind
    obtain ⟨tree, htree, hfound, hothers⟩ := holds_builtin hg ht hname hhas
    obtain rfl := Option.some.inj (hfound.symm.trans hfind)
    exact ⟨htree, hothers⟩
  · intro h
    refine Grammar.derives_of_agree ?_ h hnode
    rintro name body ⟨hname, hhas⟩ hfind
    obtain ⟨tree, htree, hfound, hothers⟩ := holds_builtin hg ht hname hhas
    obtain rfl := Option.some.inj (htree.symm.trans hfind)
    exact ⟨hfound, hothers⟩

end Builtin

/-! ## Reading a complete table -/

theorem lookup_map_pair {α : Type} {names : List String} (f : String → α) (name : String) :
    (names.map fun n => (n, f n)).lookup name = if name ∈ names then some (f name) else none := by
  induction names with
  | nil => simp
  | cons first rest ih =>
    rw [List.map_cons, Assoc.lookup_cons, ih]
    by_cases h : name = first
    · simp [h]
    · simp [h]

/-- How deep the rules nest that a rule may start with. -/
def rank (t : RuleTable) (name : String) : Nat :=
  if name ∈ Builtin.names then Builtin.rank name else 3 + t.place name

theorem rank_lt {t : RuleTable} {name other : String} (hname : name ∉ Builtin.names)
    (huse : t.MayUse name other) : t.rank other < t.rank name := by
  have hsmall : Builtin.rank other ≤ 2 := by
    unfold Builtin.rank
    split_ifs <;> omega
  rw [rank, rank, if_neg hname]
  split_ifs with hother
  · omega
  · have := huse.2.resolve_right hother
    omega

/-- **A complete table is a grammar.** If its names can be read, so can its text; the grammar has
    the bodies of the table and is fit for recognition. -/
theorem Complete.exists_grammar {t : RuleTable} (h : t.Complete)
    (hread : ∀ name, t.has name = true → IsReadable name) :
    ∃ g, Grammar.ofText t.text = .ok g ∧ g.Holds t ∧ (∀ name, g.has name = t.has name) ∧
      g.hasNaturalCounts = true ∧ ¬ LeftRecursive g := by
  choose node hnode using h.exists_node
  have hbody : ∀ name body, t.find? name = some body → IsBody body (node name) :=
    fun name body hfind => (hnode name body hfind).isBody fun other hother => hread other hother.1
  have hfits : ∀ name, t.has name = true → (node name).Fits (t.MayUse name) := by
    intro name hhas
    obtain ⟨body, hfind⟩ := Option.isSome_iff_exists.1 hhas
    exact (hnode name body hfind).fits
  have htext := ofText_text h.wellFormed
    (fun name body hfind => ⟨hread name (has_of_find? hfind),
      hbody name body hfind⟩)
    (fun name hhas other hother => ((hfits name hhas).names other hother).1)
  have hfind (name : String) : Grammar.find? (t.names.map fun n => (n, node n)) name =
      if t.has name = true then some (node name) else none := by
    rw [Grammar.find?, lookup_map_pair]
    simp only [mem_names_iff]
  have hholds : Holds (t.names.map fun n => (n, node n)) t := by
    refine ⟨hread, fun name body hname => ⟨node name, hbody name body hname, ?_⟩⟩
    rw [hfind, if_pos (has_of_find? hname)]
  refine ⟨_, htext, hholds, fun name => ?_, ?_, Grammar.not_leftRecursive_of_rank t.rank ?_⟩
  · rw [Grammar.has, hfind]
    split_ifs with hhas <;> simp [hhas]
  · refine List.all_eq_true.2 fun pair hpair => ?_
    obtain ⟨name, hname, rfl⟩ := List.mem_map.1 hpair
    exact (hfits name (mem_names_iff.1 hname)).counts
  · rintro name other ⟨body, hbody', hleads⟩
    rw [hfind] at hbody'
    split_ifs at hbody' with hhas
    obtain rfl := Option.some.inj hbody'
    by_cases hname : name ∈ Builtin.names
    · -- a built-in rule starts with built-in rules of a lower rank
      obtain ⟨tree, htree, hfound, -⟩ := holds_builtin hholds h.holdsCatalog hname hhas
      rw [hfind, if_pos hhas] at hfound
      obtain rfl := Option.some.inj hfound
      have hother := (Builtin.fits_nodes htree).names other
        (Grammar.mem_ruleNames_of_leads hleads)
      rw [rank, rank, if_pos hname, if_pos hother]
      exact Builtin.rank_leading htree other (Grammar.mem_leading_of_leads hleads)
    · exact rank_lt hname ((hfits name hhas).names other (Grammar.mem_ruleNames_of_leads hleads))

end RuleTable

end SchemaGrammar
