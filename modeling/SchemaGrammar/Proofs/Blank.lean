import SchemaGrammar.Proofs.Grammar.Recognition
import SchemaGrammar.Proofs.Grammar.Termination
import SchemaGrammar.Proofs.Legibility

set_option autoImplicit false

/-! # Blank texts are refused

Where all schemas that are reached from a document are clear and choose from something, its grammar
accepts no text of blanks (`blanks_are_refused`). References may lead back to themselves: each rule
that stands for a schema has a mark in front or leads to other such rules, and a derivation comes to
its end. A choice between no schemas has a rule without a body, which accepts even the empty text. -/

namespace SchemaGrammar

open Schema (HasCeiling HasChoices IsClear Reaches)

namespace Compiler

variable {options : Options} {schema : Json} {name : String} {s : Session}

/-- **Blank texts are refused.** Where all schemas that are reached are clear and choose from
    something, the compiled grammar accepts no text of blanks, the empty one included, if no claimed
    name was stolen. -/
theorem blanks_are_refused {order : Grammar.Order} {g : Grammar} {text : String} {v : Grammar.Verdict}
    (hceiling : HasCeiling options)
    (hclear : ∀ fields, Reaches schema schema (.obj fields) → IsClear schema fields)
    (hchoices : ∀ fields, Reaches schema schema (.obj fields) → HasChoices fields)
    (h : compileDocument options (Session.new [schema]) = .ok name s) (hown : ∀ ref, ¬ s.IsStolen ref)
    (hread : Grammar.ofText s.table.text = .ok g)
    (hcheck : Grammar.checkIn order g text Grammar.startRule = .ok v)
    (hblank : Standard.AreBlank text.toList) : v.accepted = false := by
  obtain ⟨hlegible, hsettled⟩ := legible_document hceiling hclear (fun _ : True => hchoices) h
  obtain ⟨g', hread', hnames, hnat, hbodies⟩ := exists_grammar_document hceiling hclear h
  obtain rfl : g' = g := Except.ok.inj (hread'.symm.trans hread)
  have hbody {other : String} {node : Node} (hnode : g'.find? other = some node) :
      ∃ body, s.table.find? other = some body := by
    refine Option.isSome_iff_exists.1 (RuleTable.mem_names_iff.1 (hnames ▸ ?_))
    exact List.mem_map_of_mem (Assoc.mem_of_lookup hnode)
  -- the body that the grammar has is the one that was seen to be solid
  have hsolid {other body : String} {node : Node} (hfind : s.table.find? other = some body)
      (hnode : g'.find? other = some node) (hbody : RuleTable.IsSolidBody s.IsSolid body) :
      node.IsSolid s.IsSolid := by
    obtain ⟨tree, hstands, htree⟩ := hbody
    rwa [(hbodies other body node hfind hnode).unique (hstands.isBody fun _ => id)]
  have hrules (other : String) (node : Node) (hother : s.IsSolid other)
      (hnode : g'.find? other = some node) : node.IsSolid s.IsSolid := by
    obtain ⟨body, hfind⟩ := hbody hnode
    refine hsolid hfind hnode ?_
    rcases RuleTable.IsSolid.cases hother with ⟨ref, hclaimed⟩ | ⟨body', hfind', hbody'⟩
    · -- the claimed name is that of the target's own rule
      obtain ⟨rule, hrule⟩ := hsettled ref other hclaimed
      have hsame : rule = other := by
        by_contra hne
        exact hown ref ⟨other, rule, hclaimed, hrule, hne, RuleTable.has_of_find? hfind⟩
      obtain ⟨body', hfind', hbody'⟩ := (hlegible.settled ref rule hrule).stored
      rw [hsame, hfind] at hfind'
      exact Option.some.inj hfind' ▸ hbody' trivial
    · rw [hfind] at hfind'
      exact Option.some.inj hfind' ▸ hbody'
  refine Bool.eq_false_iff.2 fun haccepted => ?_
  have hroot : g'.has Grammar.startRule = true := by
    by_contra hnone
    rw [Grammar.checkIn, if_neg hnone] at hcheck
    exact absurd hcheck (by simp)
  obtain ⟨node, hnode⟩ := Option.isSome_iff_exists.1 hroot
  obtain ⟨body, hfind⟩ := hbody hnode
  have hderives := Grammar.derives_of_accepted hnat hroot hcheck haccepted
  obtain ⟨node', hnode', hderived⟩ := Grammar.derives_rule_iff.1 hderives
  obtain rfl : node' = node := Option.some.inj (hnode'.symm.trans hnode)
  exact Node.IsSolid.not_areBlank hrules hderived
    (hsolid hfind hnode (hlegible.root trivial body hfind)) hblank

theorem blank_is_refused_sentence : ∃ name s g v,
    compileDocument .standard (Session.new [sentence]) = .ok name s ∧
      Grammar.ofText s.table.text = .ok g ∧
        Grammar.checkIn .ascending g " " Grammar.startRule = .ok v ∧ v.accepted = false := by
  obtain ⟨name, s, hrun, hhas, hhistory⟩ := exists_compiled_sentence
  have hown (ref : String) : ¬ s.IsStolen ref := by
    rintro ⟨claimed, found, hclaimed, hfound, hne, -⟩
    rw [hhistory] at hclaimed hfound
    obtain ⟨-, rfl⟩ : ref = "#/definitions/part" ∧ claimed = "ref-definitions-part" := by
      simpa using hclaimed
    obtain ⟨-, rfl⟩ : ref = "#/definitions/part" ∧ found = "ref-definitions-part" := by
      simpa using hfound
    exact hne rfl
  have hclear (fields : Json.Fields) (hfields : Reaches sentence sentence (.obj fields)) :=
    isClear_sentence hfields
  have hchoices (fields : Json.Fields) (hfields : Reaches sentence sentence (.obj fields)) :
      HasChoices fields := by
    have hmem := reaches_sentence hfields
    simp only [List.mem_cons, List.not_mem_nil, or_false] at hmem
    rcases hmem with hfields | hfields | hfields | hfields <;> cases hfields <;> exact trivial
  have hceiling : HasCeiling .standard := ⟨16, rfl⟩
  obtain ⟨g, hread, hnames, -⟩ := exists_grammar_document hceiling hclear hrun
  have hroot : g.has Grammar.startRule = true := by
    refine Assoc.lookup_isSome_iff.2 ?_
    rw [hnames]
    exact RuleTable.mem_names_iff.2 hhas
  obtain ⟨v, hv, -⟩ := Grammar.checkIn_eq_ok .ascending " " hroot
  exact ⟨name, s, g, v, hrun, hread, hv,
    blanks_are_refused hceiling hclear hchoices hrun hown hread hv (by decide)⟩

/-! ## A choice between nothing -/

/-- A choice between no schemas. -/
def emptyChoice : Json :=
  .obj [("oneOf", .arr [])]

/-- The grammar of that choice. -/
def emptyChoiceGrammar : Grammar :=
  [("root", .seq []), ("space", .alt [.seq [], .literal [32], .seq [.rep (.literal [10]) 1 (some 2),
    .rep (.charClass false [(32, 32), (9, 9)]) 0 (some 20)]])]

/-- A choice between no schemas compiles to a rule without a body, which accepts the empty text. -/
theorem emptyChoice_accepts_nothing : ∃ t v, compile .standard emptyChoice = .ok t ∧
    Grammar.ofText t.text = .ok emptyChoiceGrammar ∧
      Grammar.checkIn .ascending emptyChoiceGrammar "" Grammar.startRule = .ok v ∧
        v.accepted = true := by
  obtain ⟨t, hcompile, hrules⟩ := exists_of_seen (show (compile .standard emptyChoice).toOption.map
    RuleTable.rules = some [(Builtin.spaceName, Builtin.space), ("root", "")] by decide +kernel)
  have htext : t.text = "root ::= \nspace ::= " ++ Builtin.space ++ "\n" := by
    have hnames : t.names = ["root", "space"] := by
      have hafter : Assoc.nameLe "space" "root" = false := by decide
      rw [RuleTable.names, hrules]
      simp [Assoc.sortNames, List.mergeSort, List.MergeSort.Internal.splitInTwo, hafter,
        Builtin.spaceName]
    have hfind (name : String) : t.find? name = List.lookup name _ := congrArg (List.lookup name) hrules
    rw [RuleTable.text, hnames, List.map_cons, List.map_cons, hfind, hfind]
    rfl
  have hread : Grammar.ofText t.text = .ok emptyChoiceGrammar := by
    rw [htext]
    rfl
  have hroot : emptyChoiceGrammar.has Grammar.startRule = true := rfl
  obtain ⟨ends, m, log, hrun, hcheck⟩ := Grammar.exists_runs_checkIn .ascending
    (Grammar.ofText_eq_ok_iff.1 hread).2.closed "" hroot
  -- the body has no items, so it ends where it starts
  have hbody : Grammar.find? emptyChoiceGrammar Grammar.startRule = some (.seq []) := rfl
  obtain ⟨rfl, -, -⟩ :=
    hrun.unique (.entry (by simp [Grammar.Memory.empty]) hbody (.visit (.seq .noItem)))
  exact ⟨t, _, hcompile, hread, hcheck, rfl⟩

end Compiler

end SchemaGrammar
