import SchemaGrammar.Proofs.Compiler
import SchemaGrammar.Proofs.Metaschema
import SchemaGrammar.Proofs.Schema.ClearVisits

set_option autoImplicit false

/-! # Emitted grammars can be read

Where all schemas that are reached from a document are clear, its grammar is read back as rules with
the names that the table lists (`names_read_back`). References may lead back to themselves. A count
that is written with a fraction is not clear, and the reader refuses it. -/

namespace SchemaGrammar

open Schema (HasCeiling HasChoices HasWholeCounts IsClear Reaches)

namespace Compiler

variable {options : Options} {schema : Json} {name : String} {s : Session} {firm : Prop}

theorem legible_prepared {resolver : Resolver} (hrecords : resolver.Records schema) :
    (prepared resolver).Legible schema firm := by
  refine ⟨orderly_prepared resolver, hrecords, RuleTable.legible_new, by simp [prepared],
    by simp [prepared], fun _ body hbody => ?_⟩
  exact absurd hbody (by simp [prepared, RuleTable.find?, RuleTable.new, Builtin.spaceName])

section Clear

variable (hceiling : HasCeiling options)
variable (hclear : ∀ fields, Reaches schema schema (.obj fields) → IsClear schema fields)

include hceiling hclear

/-- Compiling a document of clear schemas leaves a legible session in which no reference is still
    waiting for its rule. -/
theorem legible_document
    (hchoices : firm → ∀ fields, Reaches schema schema (.obj fields) → HasChoices fields)
    (h : compileDocument options (Session.new [schema]) = .ok name s) :
    s.Legible schema firm ∧ ∀ ref claimed, Event.claimed ref claimed ∈ s.history →
      ∃ rule, Event.settled ref rule ∈ s.history := by
  obtain ⟨resolver, hresolve, hrun⟩ | ⟨e, resolver, -, hrun⟩ := compileDocument_run options schema
  · rw [hrun] at h
    have hclears := Schema.clears_visit hceiling hclear hchoices (Schema.depthLimit [schema, schema])
    obtain ⟨hbuilds, -⟩ := hclears.makes schema "" (prepared resolver)
      (legible_prepared (Resolver.records_resolve hresolve)) (.refl schema schema) (by decide) name s h
    refine ⟨hbuilds.legible, fun ref claimed hclaimed => ?_⟩
    exact (hbuilds.settles ref claimed hclaimed).resolve_left (by simp [prepared])
  · exact absurd (hrun.symm.trans h) (by simp)

/-- The table of such a session is read as a grammar with its names and bodies. -/
theorem exists_grammar_document
    (h : compileDocument options (Session.new [schema]) = .ok name s) :
    ∃ g, Grammar.ofText s.table.text = .ok g ∧ g.map Prod.fst = s.table.names ∧
      g.hasNaturalCounts = true ∧ ∀ other body node, s.table.find? other = some body →
        g.find? other = some node → Grammar.IsBody body node := by
  obtain ⟨hlegible, -⟩ := legible_document hceiling hclear False.elim h
  have hwhole (S : Json) (hS : Reaches schema schema S) : HasWholeCounts S := by
    cases S with
    | obj fields =>
      intro key hkey
      refine ((hclear fields hS).counts key hkey).imp_right ?_
      intro ⟨n, hn⟩
      exact ⟨n, hn⟩
    | _ => trivial
  obtain ⟨horderly, hreserved, -⟩ := compileDocument_spec (fun _ : True => hwhole) h
  exact hlegible.bodies.exists_grammar horderly.table hreserved

/-- **Emitted grammars can be read.** Where all schemas that are reached are clear, the text of the
    compiled grammar is read, and the rules are, in order, those that the table names. -/
theorem names_read_back {t : RuleTable} (h : compile options schema = .ok t) :
    ∃ g, Grammar.ofText t.text = .ok g ∧ g.map Prod.fst = t.names := by
  obtain ⟨name, s, hrun, rfl⟩ := compile_eq_ok h
  obtain ⟨g, hread, hnames, -⟩ := exists_grammar_document hceiling hclear hrun
  exact ⟨g, hread, hnames⟩

end Clear

/-- The letter `a`, as often as one likes. -/
def letters : Pattern.Regex .choice :=
  .single (.times Pattern.letter .plus false)

/-- A word of letters. -/
def word : Json :=
  .obj [("pattern", .str "^a+$")]

/-- What follows a word. -/
def following : Json :=
  .obj [("$ref", .str "#/definitions/part")]

/-- A word and what follows it. -/
def part : Json :=
  .obj [("properties", .obj [("word", word), ("next", following)])]

/-- Words in a row, of which each holds the next one. -/
def sentence : Json :=
  .obj [("$ref", .str "#/definitions/part"), ("definitions", .obj [("part", part)])]

theorem targetOf_sentence : Schema.targetOf sentence "#/definitions/part" = some part := by
  have hsegments : Pointer.segments "#/definitions/part" = ["definitions".toList, "part".toList] := by
    decide +kernel
  rw [Schema.targetOf, hsegments]
  rfl

theorem reaches_sentence {S : Json} (h : Reaches sentence sentence S) :
    S ∈ [sentence, part, word, following] := by
  have htarget {S : Json} (hS : Schema.inside sentence S =
      (Schema.targetOf sentence "#/definitions/part").toList) : Schema.inside sentence S = [part] := by
    rw [hS, targetOf_sentence]
    rfl
  have hstart : Schema.inside sentence sentence = [part] := htarget rfl
  have hpart : Schema.inside sentence part = [word, following] := rfl
  have hword : Schema.inside sentence word = [] := rfl
  have hfollowing : Schema.inside sentence following = [part] := htarget rfl
  exact h.mem_of_closed List.mem_cons_self (by simp [hstart, hpart, hword, hfollowing])

theorem isClear_sentence {fields : Json.Fields} (h : Reaches sentence sentence (.obj fields)) :
    IsClear sentence fields := by
  -- none of the schemas has counts
  have hmissing
      (hnone : ∀ key ∈ ["minLength", "maxLength", "minItems", "maxItems"],
        Json.Fields.has fields key = false) :
      ∀ key ∈ ["minLength", "maxLength", "minItems", "maxItems"],
        Schema.IsNaturalCount (Schema.keyword fields key) := by
    intro key hkey
    have hget : Json.Fields.get? fields key = none := Option.isNone_iff_eq_none.1 (by
      simpa [Json.Fields.has] using hnone key hkey)
    exact .inl (by rw [Schema.keyword, hget]; rfl)
  have hmem := reaches_sentence h
  simp only [List.mem_cons, List.not_mem_nil, or_false] at hmem
  rcases hmem with hfields | hfields | hfields | hfields <;> cases hfields
  · exact ⟨by decide, hmissing (by decide), fun hshape => absurd hshape (by decide)⟩
  · exact ⟨by decide, hmissing (by decide), fun hshape => absurd hshape (by decide)⟩
  · have hplain : letters.IsPlain := ⟨trivial, rfl⟩
    exact ⟨by decide, hmissing (by decide),
      fun _ => ⟨letters, rfl, hplain.isFaithful.isTranslatable⟩⟩
  · exact ⟨by decide, hmissing (by decide), fun hshape => absurd hshape (by decide)⟩

/-- The rule of the part is claimed at the start, and what follows a word leads back to it. -/
theorem exists_compiled_sentence : ∃ name s,
    compileDocument .standard (Session.new [sentence]) = .ok name s ∧ s.table.has "root" = true ∧
      s.history = [.linked "#/definitions/part" "root" "ref-definitions-part",
        .settled "#/definitions/part" "ref-definitions-part",
        .linked "#/definitions/part" "ref-definitions-part-next" "ref-definitions-part",
        .claimed "#/definitions/part" "ref-definitions-part"] := by
  have hobserved : observe .standard sentence (fun _ s => (s.table.has "root", s.history)) =
      some (true, [.linked "#/definitions/part" "root" "ref-definitions-part",
        .settled "#/definitions/part" "ref-definitions-part",
        .linked "#/definitions/part" "ref-definitions-part-next" "ref-definitions-part",
        .claimed "#/definitions/part" "ref-definitions-part"]) := by
    decide +kernel
  obtain ⟨name, s, hrun, hseen⟩ := exists_of_observe hobserved
  exact ⟨name, s, hrun, Prod.mk.inj hseen⟩

theorem names_read_back_sentence : ∃ t g, compile .standard sentence = .ok t ∧
    Grammar.ofText t.text = .ok g ∧ g.map Prod.fst = t.names := by
  obtain ⟨name, s, hrun, -⟩ := exists_compiled_sentence
  have hcompile : compile .standard sentence = .ok s.table := by
    unfold compile
    rw [hrun]
    rfl
  obtain ⟨g, hread, hnames⟩ :=
    names_read_back ⟨16, rfl⟩ (fun _ hfields => isClear_sentence hfields) hcompile
  exact ⟨s.table, g, hcompile, hread, hnames⟩

/-! ## What is refused -/

/-- A length that is a whole number, but written with a fraction. -/
def fractionalLength : Json :=
  .obj [("type", .str "string"), ("minLength", .num (.double (.ofDecimal false 2 0)))]

/-- The grammar of such a length, with a count that has a fraction. -/
def fractionalLengthText : String :=
  "char ::= [^\"\\\\\\x7F\\x00-\\x1F] | [\\\\] ([\"\\\\bfnrt] | \"u\" [0-9a-fA-F]\x7b4\x7d)\n" ++
    "root ::= \"\\\"\" char\x7b2.0,\x7d \"\\\"\" space\n" ++
    "space ::= | \" \" | \"\\n\"\x7b1,2\x7d [ \\t]\x7b0,20\x7d\n"

set_option maxRecDepth 20000 in
/-- The reader refuses a count with a fraction, right where it stands. -/
theorem refused_fractionalLengthText : Grammar.ofText fractionalLengthText =
    .error (.grammar (.repetition "2.0,") (some 88)) := by
  rfl

/-- A count with a fraction of zero is an integer to the metaschema. It is written as it is, and then
    the repetition is not read back. -/
theorem fractionalLength_is_refused : Metaschema.check fractionalLength = .ok [] ∧
    ∃ t, compile .standard fractionalLength = .ok t ∧ t.text = fractionalLengthText ∧
      Grammar.ofText t.text = .error (.grammar (.repetition "2.0,") (some 88)) := by
  have hcheck : Metaschema.check fractionalLength = .ok [] :=
    Metaschema.checkIn_of_isSchema _ rfl (by decide +kernel) (List.isEmpty_iff.1 (by decide +kernel))
  obtain ⟨t, hcompile, hrules⟩ := exists_of_seen (show (compile .standard fractionalLength).toOption.map
    RuleTable.rules = some [("space", Builtin.space),
      ("char", "[^\"\\\\\\x7F\\x00-\\x1F] | [\\\\] ([\"\\\\bfnrt] | \"u\" [0-9a-fA-F]\x7b4\x7d)"),
      ("root", "\"\\\"\" char\x7b2.0,\x7d \"\\\"\" space")] by decide +kernel)
  have htext : t.text = fractionalLengthText := by
    have hnames : t.names = ["char", "root", "space"] := by
      have hspace : Assoc.nameLe "space" "char" = false := by decide
      have hroot : Assoc.nameLe "space" "root" = false := by decide
      have hchar : Assoc.nameLe "char" "root" = true := by decide
      rw [RuleTable.names, hrules]
      simp [Assoc.sortNames, List.mergeSort, List.MergeSort.Internal.splitInTwo, hspace, hroot, hchar]
    have hfind (name : String) : t.find? name = List.lookup name _ := congrArg (List.lookup name) hrules
    rw [RuleTable.text, hnames, List.map_cons, List.map_cons, List.map_cons, List.map_nil, hfind, hfind,
      hfind]
    decide +kernel
  refine ⟨hcheck, t, hcompile, htext, ?_⟩
  rw [htext]
  exact refused_fractionalLengthText

end Compiler

end SchemaGrammar
