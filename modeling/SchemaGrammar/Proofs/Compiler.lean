import SchemaGrammar.Compiler
import SchemaGrammar.Proofs.Schema.Linking

set_option autoImplicit false

/-! # What is compiled from a whole document

A document is compiled from the top in a new session, once its references are recorded. The session
that this leaves is orderly and has no claimed names, so every name in the grammar is defined
(`references_defined`). Its root is the rule of the document, unless the document declares a
property without a name (`root_of_document`), and the rules that stand for a reference lead to the
rule of its target, unless the name of that rule was stolen (`links_lead_to_targets`). -/

namespace SchemaGrammar

open Grammar (IsText)
open Schema (Supports Reaches HasWholeCounts declaredKeys depthLimit)

namespace Compiler

variable {options : Options} {schema : Json} {name : String} {s : Session}

/-- The session in which a document is compiled. -/
def prepared (resolver : Resolver) : Session :=
  ⟨.new, resolver, [], []⟩

/-- A document is compiled in the session that resolving its references prepares. -/
theorem compileDocument_run (options : Options) (schema : Json) :
    (∃ resolver, Resolver.resolve 0 [] "" (Resolver.new [schema]) = .ok () resolver ∧
        compileDocument options (Session.new [schema]) =
          Schema.visit options (depthLimit [schema, schema]) schema "" (prepared resolver)) ∨
      ∃ e resolver, Resolver.resolve 0 [] "" (Resolver.new [schema]) = .error e resolver ∧
        compileDocument options (Session.new [schema]) = .error e (prepared resolver) := by
  have hbind : compileDocument options (Session.new [schema]) =
      (match Resolver.resolve 0 [] "" (Resolver.new [schema]) with
        | .ok _ r => Schema.visit options (depthLimit (r.read 0 [] :: r.documents)) (r.read 0 []) ""
            (prepared r)
        | .error e r => .error e (prepared r)) := by
    change EStateM.bind (resolve 0 [] "") _ _ = _
    unfold EStateM.bind resolve Session.onResolver
    rw [show (Session.new [schema]).resolver = Resolver.new [schema] from rfl]
    cases Resolver.resolve 0 [] "" (Resolver.new [schema]) with
    | ok _ r => rfl
    | error e r => rfl
  cases hrun : Resolver.resolve 0 [] "" (Resolver.new [schema]) with
  | ok _ r =>
    have hrecords := Resolver.records_resolve hrun
    have hread : r.read 0 [] = schema := hrecords.read []
    rw [hrun] at hbind
    refine .inl ⟨r, rfl, hbind.trans ?_⟩
    dsimp only
    rw [hread, hrecords.documents]
  | error e r =>
    rw [hrun] at hbind
    exact .inr ⟨e, r, rfl, hbind⟩

theorem orderly_prepared {tidy : Prop} (resolver : Resolver) : (prepared resolver).Orderly tidy :=
  ⟨RuleTable.orderly_new, by simp [prepared], by simp [prepared]⟩

/-- What is known of a document that is compiled. -/
theorem compileDocument_spec {tidy : Prop}
    (hcounts : tidy → ∀ S, Reaches schema schema S → HasWholeCounts S)
    (h : compileDocument options (Session.new [schema]) = .ok name s) :
    s.Orderly tidy ∧ s.table.reserved = [] ∧ s.table.has name = true ∧
      ("" ∉ declaredKeys schema schema → name = "root") := by
  obtain ⟨resolver, hresolve, hrun⟩ | ⟨e, resolver, -, hrun⟩ := compileDocument_run options schema
  rotate_left
  · exact absurd (hrun.symm.trans h) (by simp)
  have hrecords := Resolver.records_resolve hresolve
  rw [hrun] at h
  have hsupports : Supports schema tidy schema (prepared resolver) := ⟨fun _ => hrecords, hcounts⟩
  obtain ⟨hadvances, hvisited⟩ := (Work.leads_iff.1
    (Schema.runs_visit options _ "" (orderly_prepared resolver) hsupports)).1 name s h
  refine ⟨hadvances.orderly, ?_, hvisited.has, fun hkeys => ?_⟩
  · refine List.eq_nil_iff_forall_not_mem.2 fun other hother => ?_
    exact absurd (hadvances.reserved other hother) (by simp [prepared, RuleTable.new])
  · exact hvisited.rooted rfl hrecords hkeys rfl

/-! ## Observing -/

/-- What can be seen of the session that compiling a document leaves. -/
def observe {α : Type} (options : Options) (schema : Json) (f : String → Session → α) : Option α :=
  match compileDocument options (Session.new [schema]) with
  | .ok name s => some (f name s)
  | .error _ _ => none

theorem exists_of_observe {α : Type} {f : String → Session → α} {a : α}
    (h : observe options schema f = some a) :
    ∃ name s, compileDocument options (Session.new [schema]) = .ok name s ∧ f name s = a := by
  unfold observe at h
  cases hrun : compileDocument options (Session.new [schema]) with
  | ok name s =>
    rw [hrun] at h
    exact ⟨name, s, rfl, Option.some.inj h⟩
  | error e s =>
    rw [hrun] at h
    exact absurd h (by simp)

/-! ## The root -/

/-- **The start rule is the document's.** A document that declares no property without a name has
    the root. -/
theorem root_of_document (hkeys : "" ∉ declaredKeys schema schema)
    (h : compileDocument options (Session.new [schema]) = .ok name s) :
    name = "root" ∧ s.table.has "root" = true := by
  obtain ⟨-, -, hhas, hroot⟩ := compileDocument_spec False.elim h
  obtain rfl := hroot hkeys
  exact ⟨rfl, hhas⟩

/-- The document of a plain value has the root, too. -/
example : observe .standard (.obj [("type", .str "boolean")]) (fun name _ => name) = some "root" := by
  decide +kernel

/-- An object with a property. -/
def oneProperty (key : String) : Json :=
  .obj [("type", .str "object"), ("properties", .obj [(key, .obj [("type", .str "boolean")])])]

theorem root_of_oneProperty : ∃ name s,
    compileDocument .standard (Session.new [oneProperty "a"]) = .ok name s ∧ name = "root" ∧
      s.table.has "root" = true := by
  have hobserved : observe .standard (oneProperty "a") (fun name _ => name) = some "root" := by
    decide +kernel
  obtain ⟨name, s, hrun, -⟩ := exists_of_observe hobserved
  exact ⟨name, s, hrun, root_of_document (by decide +kernel) hrun⟩

/-- A property without a name takes the root away: its schema has it, and the object has another
    rule. -/
theorem root_of_namelessProperty : ∃ s,
    compileDocument .standard (Session.new [oneProperty ""]) = .ok "root0" s ∧
      s.table.find? "root" = some "(\"true\" | \"false\") space" := by
  have hobserved : observe .standard (oneProperty "") (fun name s => (name, s.table.find? "root")) =
      some ("root0", some "(\"true\" | \"false\") space") := by
    decide +kernel
  obtain ⟨name, s, hrun, hseen⟩ := exists_of_observe hobserved
  obtain ⟨rfl, hroot⟩ := Prod.mk.inj hseen
  exact ⟨s, hrun, hroot⟩

/-! ## References -/

/-- **References lead to their targets.** In a session that has compiled a document, a rule that
    stands for a reference leads to the rule of the reference's target, unless a rule of another
    schema has got the name that was claimed for it. -/
theorem links_lead_to_targets {ref link rule : String}
    (h : compileDocument options (Session.new [schema]) = .ok name s)
    (hlink : Event.linked ref link rule ∈ s.history) (hown : ¬ s.IsStolen ref) :
    s.table.find? link = some rule ∧ s.ruleNames.lookup ref = some rule := by
  obtain ⟨horderly, -⟩ := compileDocument_spec (fun hfalse : False => hfalse.elim) h
  obtain ⟨hfind, now, hnow, hrule⟩ := horderly.links ref link rule hlink
  obtain rfl := hrule.resolve_right hown
  exact ⟨hfind, hnow⟩

/-- A list that goes on for as long as it likes. -/
def chain : Json :=
  .obj [("$ref", .str "#/definitions/a"), ("definitions", .obj [("a", .obj [("properties",
    .obj [("next", .obj [("$ref", .str "#/definitions/a")])])])])]

theorem chain_leads_to_itself : ∃ name s, compileDocument .standard (Session.new [chain]) = .ok name s ∧
    s.table.find? "ref-definitions-a-next" = some "ref-definitions-a" ∧
      s.ruleNames.lookup "#/definitions/a" = some "ref-definitions-a" := by
  have hobserved : observe .standard chain (fun _ s => s.history) =
      some [.linked "#/definitions/a" "root" "ref-definitions-a",
        .settled "#/definitions/a" "ref-definitions-a",
        .linked "#/definitions/a" "ref-definitions-a-next" "ref-definitions-a",
        .claimed "#/definitions/a" "ref-definitions-a"] := by
    decide +kernel
  obtain ⟨name, s, hrun, hhistory⟩ := exists_of_observe hobserved
  have hown : ¬ s.IsStolen "#/definitions/a" := by
    rintro ⟨claimed, found, hclaimed, hfound, hne, -⟩
    rw [hhistory] at hclaimed hfound
    obtain rfl : claimed = "ref-definitions-a" := by simpa using hclaimed
    obtain rfl : found = "ref-definitions-a" := by simpa using hfound
    exact hne rfl
  exact ⟨name, s, hrun, links_lead_to_targets hrun (by simp [hhistory]) hown⟩

/-- A schema whose part has the name that a reference claims. -/
def thief : Json :=
  .obj [("$ref", .str "#/definitions/a"), ("definitions", .obj [
    ("a", .obj [("properties", .obj [("x", .obj [("$ref", .str "#/definitions")]),
      ("y", .obj [("$ref", .str "#/definitions/a")])])]),
    ("properties", .obj [("a", .obj [("enum", .arr [.str "e"])])])])]

/-- The name that a reference claims is stolen while its target is compiled: what stands for the
    reference leads to the thief, and the target has another rule. -/
theorem thief_leads_astray : ∃ name s, compileDocument .standard (Session.new [thief]) = .ok name s ∧
    Event.linked "#/definitions/a" "ref-definitions-a-y" "ref-definitions-a" ∈ s.history ∧
    s.table.find? "ref-definitions-a" = some "(\"\\\"e\\\"\") space" ∧
    s.ruleNames.lookup "#/definitions/a" = some "ref-definitions-a0" := by
  have hobserved : observe .standard thief (fun _ s =>
      (s.history.contains (.linked "#/definitions/a" "ref-definitions-a-y" "ref-definitions-a"),
        s.table.find? "ref-definitions-a", s.ruleNames.lookup "#/definitions/a")) =
      some (true, some "(\"\\\"e\\\"\") space", some "ref-definitions-a0") := by
    decide +kernel
  obtain ⟨name, s, hrun, hseen⟩ := exists_of_observe hobserved
  obtain ⟨hlinked, hseen⟩ := Prod.mk.inj hseen
  obtain ⟨hfind, hlookup⟩ := Prod.mk.inj hseen
  exact ⟨name, s, hrun, List.contains_iff_mem.1 hlinked, hfind, hlookup⟩

/-! ## The grammar -/

/-- What a document comes to once it has passed the check that may be asked for. -/
def outcome (options : Options) (schema : Json) : Except Failure RuleTable :=
  match compileDocument options (Session.new [schema]) with
  | .ok _ s => .ok s.table
  | .error e _ => .error e

theorem compile_run (options : Options) (schema : Json) : compile options schema = (do
    if options.checkSchema then
      let issues ← Metaschema.checkIn options.dialects schema
      if !issues.isEmpty then throw (.invalidSchema issues)
    outcome options schema) :=
  rfl

theorem compile_of_unchecked (h : options.checkSchema = false) :
    compile options schema = outcome options schema := by
  rw [compile_run, if_neg (by simp [h])]

/-- A document is not fit to be checked, does not pass the check, or is compiled. -/
theorem compile_cases (options : Options) (schema : Json) :
    (∃ e, Metaschema.checkIn options.dialects schema = .error e ∧ compile options schema = .error e) ∨
      (∃ issues, Metaschema.checkIn options.dialects schema = .ok issues ∧ issues ≠ [] ∧
        compile options schema = .error (.invalidSchema issues)) ∨
      compile options schema = outcome options schema := by
  cases hcheck : options.checkSchema with
  | false => exact .inr (.inr (compile_of_unchecked hcheck))
  | true =>
    rw [compile_run, if_pos hcheck]
    cases hissues : Metaschema.checkIn options.dialects schema with
    | error e => exact .inl ⟨e, rfl, rfl⟩
    | ok issues => cases issues with
      | nil => exact .inr (.inr rfl)
      | cons issue rest => exact .inr (.inl ⟨issue :: rest, rfl, by simp, rfl⟩)

theorem outcome_eq_ok {t : RuleTable} (h : outcome options schema = .ok t) :
    ∃ name s, compileDocument options (Session.new [schema]) = .ok name s ∧ s.table = t := by
  unfold outcome at h
  cases hrun : compileDocument options (Session.new [schema]) with
  | ok name s =>
    rw [hrun] at h
    exact ⟨name, s, rfl, Except.ok.inj h⟩
  | error e s =>
    rw [hrun] at h
    cases h

theorem compile_eq_ok {t : RuleTable} (h : compile options schema = .ok t) :
    ∃ name s, compileDocument options (Session.new [schema]) = .ok name s ∧ s.table = t := by
  obtain ⟨e, -, hrun⟩ | ⟨issues, -, -, hrun⟩ | hrun := compile_cases options schema
  · cases hrun.symm.trans h
  · cases hrun.symm.trans h
  · exact outcome_eq_ok (hrun.symm.trans h)

/-- What is compiled is compiled from the top, with the references of the document recorded. -/
theorem exists_visited {t : RuleTable} (h : compile options schema = .ok t) :
    ∃ resolver depth name s, resolver.Records schema ∧ s.table = t ∧
      Schema.visitWith (Schema.visit options depth) options schema "" (prepared resolver) =
        .ok name s := by
  obtain ⟨name, s, hdocument, htable⟩ := compile_eq_ok h
  obtain ⟨resolver, hresolve, hrun⟩ | ⟨e, resolver, -, hrun⟩ := compileDocument_run options schema
  · obtain ⟨depth, hdepth⟩ : ∃ depth, depthLimit [schema, schema] = depth + 1 :=
      Nat.exists_eq_succ_of_ne_zero (by simp [depthLimit])
    rw [hrun, hdepth, Schema.visit] at hdocument
    exact ⟨resolver, depth, name, s, Resolver.records_resolve hresolve, htable, hdocument⟩
  · exact absurd (hrun.symm.trans hdocument) (by simp)

theorem exists_of_isOk (h : (compile options schema).isOk = true) :
    ∃ t, compile options schema = .ok t := by
  cases hrun : compile options schema with
  | ok t => exact ⟨t, rfl⟩
  | error e =>
    rw [hrun] at h
    exact absurd h (by simp [Except.isOk, Except.toBool])

/-- What is seen of a compiled table is seen of a table. -/
theorem exists_of_seen {α : Type} {f : RuleTable → α} {a : α}
    (h : (compile options schema).toOption.map f = some a) :
    ∃ t, compile options schema = .ok t ∧ f t = a := by
  cases hrun : compile options schema with
  | ok t =>
    rw [hrun] at h
    exact ⟨t, rfl, Option.some.inj h⟩
  | error e =>
    rw [hrun] at h
    cases h

/-- **No dangling rule reference.** Where all counts are missing or whole, the rules of a compiled
    document have different names, the names in their bodies are names of rules, and the grammar's
    text can be read unless it is at fault in another way than by a name that is undefined or defined
    twice. -/
theorem references_defined {t : RuleTable} (hcounts : ∀ S, Reaches schema schema S → HasWholeCounts S)
    (h : compile options schema = .ok t) :
    t.names.Nodup ∧
      (∀ name body, t.find? name = some body → IsText (fun other => other ∈ t.names) body) ∧
      ((∃ g, Grammar.ofText t.text = .ok g) ∨
        ∃ e, e.IsSyntactic ∧ Grammar.ofText t.text = .error e) := by
  obtain ⟨name, s, hrun, rfl⟩ := compile_eq_ok h
  obtain ⟨horderly, hreserved, -⟩ := compileDocument_spec (fun _ : True => hcounts) hrun
  refine ⟨?_, fun name body hbody => ?_, ?_⟩
  · exact s.table.perm_names.nodup_iff.2 horderly.table.coherent.wellFormed.nodup
  · refine (horderly.table.bodies trivial name body hbody).mono fun other hother => ?_
    rw [RuleTable.Promises, hreserved] at hother
    exact RuleTable.mem_names_iff.2 (hother.resolve_right (by simp))
  · exact (horderly.table.ofText_settles hreserved).imp_left (Exists.imp fun g => And.left)

/-- A list of nulls has the rule of its items. -/
example : observe .standard (.obj [("items", .obj [("type", .str "null")])])
    (fun _ s => s.table.find? "null") = some (some "\"null\" space") := by
  decide +kernel

/-- A text with a least length. -/
def longText : Json :=
  .obj [("type", .str "string"), ("minLength", .num (.whole 3))]

/-- A list of such texts. -/
def longTexts : Json :=
  .obj [("items", longText), ("minItems", .num (.whole 2))]

theorem longTexts_defined : ∃ t, compile .standard longTexts = .ok t ∧ t.names.Nodup ∧
    (∀ name body, t.find? name = some body → IsText (fun other => other ∈ t.names) body) ∧
    ((∃ g, Grammar.ofText t.text = .ok g) ∨
      ∃ e, e.IsSyntactic ∧ Grammar.ofText t.text = .error e) := by
  have hcounts : ∀ S, Reaches longTexts longTexts S → HasWholeCounts S := by
    intro S hS
    have hwhole (n : Int) : Grammar.IsCount (.num (.whole n)) := .inr ⟨n, rfl⟩
    have hmissing : Grammar.IsCount .null := .inl rfl
    rcases Relation.ReflTransGen.cases_head hS with rfl | ⟨T, hT, hS⟩
    · simpa [HasWholeCounts, longTexts] using ⟨hmissing, hmissing, hwhole 2, hmissing⟩
    have hitem : Schema.inside longTexts longTexts = [longText] := rfl
    obtain rfl : T = longText := by simpa [hitem] using hT
    have hnone : Schema.inside longTexts longText = [] := rfl
    rcases Relation.ReflTransGen.cases_head hS with rfl | ⟨T, hT, -⟩
    · simpa [HasWholeCounts, longText] using ⟨hwhole 3, hmissing, hmissing, hmissing⟩
    · simp [hnone] at hT
  have hcompiled : (compile .standard longTexts).isOk = true := by decide +kernel
  cases hrun : compile .standard longTexts with
  | ok t => exact ⟨t, rfl, references_defined hcounts hrun⟩
  | error e =>
    rw [hrun] at hcompiled
    exact absurd hcompiled (by simp [Except.isOk, Except.toBool])

end Compiler

end SchemaGrammar
