import SchemaGrammar.Proofs.Grammar.Solid
import SchemaGrammar.Proofs.Rules.Orderly

set_option autoImplicit false

/-! # Legible tables

A table is legible if all its names and bodies can be read (`RuleTable.Legible`), whether or not the
names in the bodies are there yet. A rule is solid if no blanks come of it: its body is solid over
names of rules of which the same can be said. As rules may lead back to themselves, this is the
greatest such set of names, so a set that is closed under it shows the rules in it to be solid. Names
that wait for their rules are `pending` and are taken to be solid until then
(`RuleTable.IsSolid`). -/

namespace SchemaGrammar

open Grammar (IsReadable IsBody Reads)

namespace RuleTable

/-! ## Bodies -/

/-- The text can be read as the body of a rule. -/
def IsLegibleBody (body : String) : Prop :=
  ∃ node, Stands IsReadable body node

/-- The text can be read as the body of a rule from which no blanks are derived, if none are derived
    from the rules that `V` names. -/
def IsSolidBody (V : String → Prop) (body : String) : Prop :=
  ∃ node, Stands IsReadable body node ∧ node.IsSolid V

section Bodies

variable {V W : String → Prop} {Q : Grammar → Prop} {body name own : String} {L : Language Char}

theorem isLegibleBody_of_reads (h : Reads IsReadable Q body L) : IsLegibleBody body := by
  obtain ⟨rows, hw, -⟩ := h
  exact ⟨_, .inr ⟨rows, hw, rfl⟩⟩

theorem isSolidBody_of_isSolid (h : Grammar.IsSolid V body) : IsSolidBody V body := by
  obtain ⟨rows, hw, hsolid⟩ := h
  exact ⟨_, .inr ⟨rows, hw, rfl⟩, Grammar.isSolid_ofRows hw.fits.1 hsolid⟩

theorem IsSolidBody.isLegibleBody (h : IsSolidBody V body) : IsLegibleBody body := by
  obtain ⟨node, hstands, -⟩ := h
  exact ⟨node, hstands⟩

theorem IsSolidBody.mono (h : IsSolidBody V body) (hVW : ∀ name, V name → W name) :
    IsSolidBody W body := by
  obtain ⟨node, hstands, hsolid⟩ := h
  exact ⟨node, hstands, hsolid.mono fun name _ => hVW name⟩

theorem stands_builtin {node : Node} (hnode : Builtin.nodes.lookup name = some node)
    (hbody : IsBody body node) : Stands IsReadable body node :=
  .inl ⟨hbody, (Builtin.fits_nodes hnode).mono Builtin.readable_names⟩

end Bodies

/-! ## Solid rules -/

/-- No blanks come of a rule, if none come of those that are pending. -/
def IsSolid (t : RuleTable) (pending : String → Prop) (name : String) : Prop :=
  ∃ V : String → Prop, V name ∧ ∀ other, V other →
    pending other ∨ ∃ body, t.find? other = some body ∧ IsSolidBody V body

section Solid

variable {t t' : RuleTable} {pending pending' : String → Prop} {name body : String}

theorem isSolid_of_pending (h : pending name) : t.IsSolid pending name :=
  ⟨pending, h, fun _ => .inl⟩

theorem IsSolid.cases (h : t.IsSolid pending name) :
    pending name ∨ ∃ body, t.find? name = some body ∧ IsSolidBody (t.IsSolid pending) body := by
  obtain ⟨V, hV, hclosed⟩ := h
  refine (hclosed name hV).imp_right fun ⟨body, hfind, hbody⟩ => ⟨body, hfind, hbody.mono ?_⟩
  exact fun other hother => ⟨V, hother, hclosed⟩

theorem isSolid_of_find? (hfind : t.find? name = some body)
    (hbody : IsSolidBody (t.IsSolid pending) body) : t.IsSolid pending name := by
  refine ⟨fun other => other = name ∨ t.IsSolid pending other, .inl rfl, ?_⟩
  rintro other (rfl | hother)
  · exact .inr ⟨body, hfind, hbody.mono fun _ => .inr⟩
  · refine hother.cases.imp_right fun ⟨body, hfind, hbody⟩ => ⟨body, hfind, hbody.mono ?_⟩
    exact fun _ => .inr

/-- Solid rules stay solid when rules are added. -/
theorem IsSolid.mono (h : t.IsSolid pending name) (hextends : t.Extends t')
    (hpending : ∀ other, pending other → pending' other) : t'.IsSolid pending' name := by
  refine ⟨t.IsSolid pending, h, fun other hother => hother.cases.imp (hpending other) ?_⟩
  intro ⟨body, hfind, hbody⟩
  exact ⟨body, hextends.find? hfind, hbody⟩

end Solid

/-! ## Legible tables -/

/-- All names and bodies can be read. -/
def Legible (t : RuleTable) : Prop :=
  ∀ name body, t.find? name = some body → IsReadable name ∧ IsLegibleBody body

section Legible

variable {t t' : RuleTable} {name body slot own : String} {rule : Builtin} {sorted : Prop}
variable {pending : String → Prop}

theorem legible_new : new.Legible := by
  intro name body hfind
  have hmem := Assoc.mem_of_lookup hfind
  obtain ⟨rfl, rfl⟩ : name = Builtin.spaceName ∧ body = Builtin.space := by simpa [new] using hmem
  have hspace : (Builtin.spaceName, Builtin.space) ∈ Builtin.bodies := List.mem_cons_self
  obtain ⟨node, hnode, hbody⟩ := Builtin.exists_node hspace
  exact ⟨by decide, node, stands_builtin hnode hbody⟩

theorem Legible.readable (h : t.Legible) (hname : t.has name = true) : IsReadable name := by
  obtain ⟨body, hfind⟩ := Option.isSome_iff_exists.1 hname
  exact (h name body hfind).1

theorem Legible.adds (h : t.Legible) (hadds : Adds t name body slot t') (hne : name ≠ "")
    (hdigits : HasPlainDigits name) (hbody : IsLegibleBody body) : t'.Legible := by
  intro other content hother
  by_cases heq : other = slot
  · subst heq
    obtain rfl := Option.some.inj (hadds.find?.symm.trans hother)
    exact ⟨hadds.isSlot.isReadable hne hdigits, hbody⟩
  · rw [hadds.find?_of_ne heq] at hother
    exact h other content hother

theorem Legible.isLegibleBody (h : t.Legible) {L : Language Char} (hw : t.Writes body L) :
    IsLegibleBody body :=
  isLegibleBody_of_reads (Grammar.Reads.mono hw fun _ => h.readable)

/-- Legible tables that agree with the catalog stay so. -/
theorem isLasting_legible :
    IsLasting True fun t => t.Coherent False (fun _ => False) ∧ t.Legible where
  storable _ h := h.1.storable
  add t t' name body slot L h hname hw hrun := by
    obtain ⟨hcoherent, hlegible⟩ := h
    have hadds := adds_add hcoherent.wellFormed name body
    rw [hrun] at hadds
    exact ⟨hadds, hcoherent.add hadds hname.nonempty hname.free False.elim,
      hlegible.adds hadds hname.nonempty (hname.digits trivial) (hlegible.isLegibleBody hw)⟩

/-- A built-in rule and what it needs can be read. -/
theorem Legible.addsBuiltin (h : t.Legible)
    (hadds : AddsBuiltin sorted (fun _ => False) t name rule slot t')
    (hown : Builtin.find? own = some rule) (hne : name ≠ "") (hdigits : HasPlainDigits name) :
    t'.Legible := by
  intro other content hother
  have hhas := has_of_find? hother
  rcases hadds.only other hhas with hold | rfl | hmem
  · obtain ⟨body, hfind⟩ := Option.isSome_iff_exists.1 hold
    obtain rfl := Option.some.inj ((hadds.extends_.find? hfind).symm.trans hother)
    exact h other body hfind
  · obtain rfl := Option.some.inj (hadds.find?.symm.trans hother)
    obtain ⟨node, hnode, hbody⟩ := Builtin.exists_node (mem_bodies hown)
    exact ⟨hadds.isSlot.isReadable hne hdigits, node, stands_builtin hnode hbody⟩
  · obtain ⟨⟨other, body⟩, hpair, rfl⟩ := List.mem_map.1 hmem
    obtain ⟨node, hnode, -⟩ := Builtin.exists_node hpair
    obtain ⟨⟨body, hfind, hbody⟩, -⟩ := hadds.coherent.holdsCatalog other node hnode hhas
    obtain rfl := Option.some.inj (hfind.symm.trans hother)
    exact ⟨Builtin.readable_names other hmem, node, stands_builtin hnode hbody⟩

end Legible

/-- **Legible tables are grammars.** If every name in a body is that of a rule, the text of a legible
    table is read, and the rules have the names and the bodies of the table. -/
theorem Legible.exists_grammar {t : RuleTable} (h : t.Legible) (horderly : t.Orderly True)
    (hreserved : t.reserved = []) :
    ∃ g, Grammar.ofText t.text = .ok g ∧ g.map Prod.fst = t.names ∧ g.hasNaturalCounts = true ∧
      ∀ name body node, t.find? name = some body → g.find? name = some node → IsBody body node := by
  have hnode (name : String) : ∃ node, ∀ body, t.find? name = some body →
      Stands IsReadable body node := by
    cases hfind : t.find? name with
    | none => exact ⟨default, fun body hbody => absurd hbody (by simp)⟩
    | some body =>
      obtain ⟨node, hstands⟩ := (h name body hfind).2
      exact ⟨node, fun other hother => Option.some.inj hother ▸ hstands⟩
  choose node hnode using hnode
  have hbody (name body : String) (hfind : t.find? name = some body) :
      IsReadable name ∧ IsBody body (node name) :=
    ⟨(h name body hfind).1, (hnode name body hfind).isBody fun _ => id⟩
  have hread := ofText_text_eq horderly.coherent.wellFormed hbody
  rcases horderly.ofText_settles hreserved with ⟨g, hg, hnames⟩ | ⟨e, hsyntactic, hfault⟩
  · obtain rfl : t.names.map (fun name => (name, node name)) = g := by
      rw [hread] at hg
      obtain ⟨_, -, hlast⟩ := Work.except_bind_eq_ok.1 hg
      exact Except.ok.inj hlast
    refine ⟨_, hg, hnames, List.all_eq_true.2 fun pair hpair => ?_,
      fun name body tree hfind htree => ?_⟩
    · obtain ⟨name, hname, rfl⟩ := List.mem_map.1 hpair
      obtain ⟨body, hfind⟩ := Option.isSome_iff_exists.1 (mem_names_iff.1 hname)
      exact (hnode name body hfind).fits.counts
    · rw [Grammar.find?, lookup_map_pair, if_pos (mem_names_iff.2 (has_of_find? hfind))] at htree
      exact Option.some.inj htree ▸ (hbody name body hfind).2
  · -- the only fault left is a name without a rule, which is none of syntax
    rw [hread] at hfault
    rcases Work.except_bind_eq_error.1 hfault with hcheck | ⟨_, -, hlast⟩
    · unfold Grammar.checkReferences at hcheck
      split at hcheck
      · exact absurd (Except.error.inj hcheck).symm (hsyntactic _ none).1
      · exact absurd hcheck (by simp)
    · exact absurd hlast (by simp [pure, Except.pure])

end RuleTable

/-! ## Built-in rules -/

namespace Builtin

/-- The built-in rules for values, from which no blanks are derived. -/
def solidNames : List String :=
  ["boolean", "integral-part", "number", "integer", "value", "object", "array", "uuid", "string",
    "null", "date-string", "time-string", "date-time-string"]

section Nodes

variable {V : String → Prop}

theorem isSolid_literal {codes : List Nat} {text : List Char} (hcodes : text.map Char.toNat = codes)
    (h : ¬ Standard.AreBlank text) : (Node.literal codes).IsSolid V := by
  subst hcodes
  refine .of_language (fun g => Grammar.language_literal g text) fun other hother => ?_
  obtain rfl : other = text := hother
  exact h

theorem isSolid_markNode {c : Char} (h : ¬ Standard.AreBlank [c]) : (markNode c).IsSolid V :=
  isSolid_literal rfl h

theorem isSolid_classNode {lo hi : Char} (h : ' '.toNat < lo.toNat) : (classNode lo hi).IsSolid V := by
  refine .of_language (fun g => Grammar.language_charClass g _ _) ?_
  rintro text ⟨c, rfl, hc⟩ hblank
  have hholds : lo.toNat ≤ c.toNat := by
    simp only [Node.classHolds, List.any_cons, List.any_nil] at hc
    simp at hc
    exact hc.1
  have hsmall : ∀ c ∈ [' ', '\t', '\n', '\r'], c.toNat ≤ ' '.toNat := by decide
  have hle := hsmall c (hblank c List.mem_cons_self)
  omega

theorem isSolid_quotedNode (node : Node) : (quotedNode node).IsSolid V :=
  .seq List.mem_cons_self (isSolid_markNode (by decide))

end Nodes

theorem isSolid_nodes {name : String} {node : Node} (h : nodes.lookup name = some node)
    (hname : name ∈ solidNames) : node.IsSolid (· ∈ solidNames) := by
  have hintegral : (Node.rule "integral-part").IsSolid (· ∈ solidNames) := .rule (by decide)
  have hsigned {sign : Node} : (Node.seq [sign, .rule "integral-part"]).IsSolid (· ∈ solidNames) :=
    .seq (by simp) hintegral
  simp only [solidNames, List.mem_cons, List.not_mem_nil, or_false] at hname
  rcases hname with rfl | rfl | rfl | rfl | rfl | rfl | rfl | rfl | rfl | rfl | rfl | rfl | rfl <;>
    obtain rfl := Option.some.inj h
  · refine .seq List.mem_cons_self (.alt ?_)
    simp only [List.forall_mem_cons]
    exact ⟨isSolid_literal rfl (by decide), isSolid_literal rfl (by decide), by simp⟩
  · refine .alt ?_
    simp only [List.forall_mem_cons]
    exact ⟨isSolid_classNode (by decide), .seq List.mem_cons_self (isSolid_classNode (by decide)),
      by simp⟩
  · exact .seq List.mem_cons_self hsigned
  · exact .seq List.mem_cons_self hsigned
  · refine .alt fun branch hbranch => ?_
    have hall : ∀ branch ∈ ["object", "array", "string", "number", "boolean", "null"].map Node.rule,
        branch.IsSolid (· ∈ solidNames) := by
      intro branch hbranch
      obtain ⟨name, hname, rfl⟩ := List.mem_map.1 hbranch
      have hsub : ∀ name ∈ ["object", "array", "string", "number", "boolean", "null"],
          name ∈ solidNames := by decide
      exact .rule (hsub name hname)
    exact hall branch hbranch
  · exact .seq List.mem_cons_self (isSolid_markNode (by decide))
  · exact .seq List.mem_cons_self (isSolid_markNode (by decide))
  · exact .seq List.mem_cons_self (isSolid_markNode (by decide))
  · exact isSolid_quotedNode _
  · exact .seq List.mem_cons_self (isSolid_literal rfl (by decide))
  · exact isSolid_quotedNode _
  · exact isSolid_quotedNode _
  · exact isSolid_quotedNode _

end Builtin

namespace RuleTable

variable {t t' : RuleTable} {name slot own : String} {rule : Builtin} {sorted : Prop}
variable {pending : String → Prop}

/-- The rules for values that a table has are solid, as what they need is there as well. -/
theorem HoldsCatalog.isSolid (h : t.HoldsCatalog) (hname : name ∈ Builtin.solidNames)
    (hhas : t.has name = true) : t.IsSolid pending name := by
  refine ⟨fun other => other ∈ Builtin.solidNames ∧ t.has other = true, ⟨hname, hhas⟩, ?_⟩
  rintro other ⟨hother, hthere⟩
  have hsub : ∀ name ∈ Builtin.solidNames, name ∈ Builtin.names := by decide
  obtain ⟨⟨other, body⟩, hpair, rfl⟩ := List.mem_map.1 (hsub other hother)
  obtain ⟨node, hnode, -⟩ := Builtin.exists_node hpair
  obtain ⟨⟨body, hfind, hbody⟩, hneeds⟩ := h other node hnode hthere
  refine .inr ⟨body, hfind, node, stands_builtin hnode hbody, ?_⟩
  exact (Builtin.isSolid_nodes hnode hother).mono fun need hneed hsolid => ⟨hsolid, hneeds need hneed⟩

/-- The body of a rule for values is solid, under whatever name it is. -/
theorem AddsBuiltin.isSolidBody (hadds : AddsBuiltin sorted (fun _ => False) t name rule slot t')
    (hown : Builtin.find? own = some rule) (hsolid : own ∈ Builtin.solidNames) :
    IsSolidBody (t'.IsSolid pending) rule.body := by
  obtain ⟨node, hnode, hbody⟩ := Builtin.exists_node (mem_bodies hown)
  refine ⟨node, stands_builtin hnode hbody, (Builtin.isSolid_nodes hnode hsolid).mono ?_⟩
  intro need hneed hneeded
  refine hadds.coherent.holdsCatalog.isSolid hneeded ?_
  rcases Builtin.ruleNames_subset hown hnode need hneed with rfl | hneed
  · exact has_of_find? hadds.coherent.space
  · exact hadds.needs need hneed

end RuleTable

end SchemaGrammar
