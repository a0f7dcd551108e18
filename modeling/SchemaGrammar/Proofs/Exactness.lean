import SchemaGrammar.Proofs.Compiler
import SchemaGrammar.Proofs.Grammar.Recognition
import SchemaGrammar.Proofs.Schema.Exact
import SchemaGrammar.Proofs.Schema.Standard

set_option autoImplicit false

/-! # Compiled grammars are exact

The grammar of a document in the core fragment accepts the texts of the schema that its root stands
for, and no others (`accepts_iff_mem_language`). That schema is the document itself, unless the
document declares a property without a name: then the property has the root. Either way the accepted
texts are JSON documents (`isDocument_of_accepted`). -/

namespace SchemaGrammar

open Schema (Core HasReadableKeys HasCeiling HasFiniteConstants IsExact SoundSession Compiled Reaches
  IsPlain RefersTo language start)

namespace Compiler

variable {options : Options} {schema : Json} {name : String} {s : Session} {plain : Prop}

theorem soundSession_prepared {resolver : Resolver} (hrecords : resolver.Records schema) :
    SoundSession options schema plain (fun _ => False) (prepared resolver) :=
  ⟨RuleTable.sound_new plain, hrecords, by simp [prepared]⟩

/-- What is left when a document of the core fragment is compiled. -/
theorem compiled_document (hcore : Core schema) (hceiling : HasCeiling options)
    (hkeys : plain → HasReadableKeys schema)
    (h : compileDocument options (Session.new [schema]) = .ok name s) :
    ∃ resolver, Compiled options schema plain (fun _ => False) schema "" (prepared resolver) s name := by
  obtain ⟨resolver, hresolve, hrun⟩ | ⟨e, resolver, -, hrun⟩ := compileDocument_run options schema
  · have hrecords := Resolver.records_resolve hresolve
    rw [hrun] at h
    refine ⟨resolver, ?_⟩
    exact Schema.isExact_visit hcore hceiling hkeys _ _ _ _ _ _ _ h (soundSession_prepared hrecords)
      (.refl schema schema) (fun _ => by decide) fun _ hbusy => hbusy.elim
  · exact absurd (hrun.symm.trans h) (by simp)

/-- If the keys of the document can be read, so can its grammar. -/
theorem exists_grammar {t : RuleTable} (hcore : Core schema) (hceiling : HasCeiling options)
    (hkeys : HasReadableKeys schema) (h : compile options schema = .ok t) :
    ∃ g, Grammar.ofText t.text = .ok g := by
  obtain ⟨name, s, hrun, rfl⟩ := compile_eq_ok h
  obtain ⟨resolver, hcompiled⟩ :=
    compiled_document hcore hceiling (fun hplain : HasReadableKeys schema => hplain) hrun
  have hsound := hcompiled.session.table
  obtain ⟨g, hread, -⟩ := hsound.complete.exists_grammar (hsound.readable hkeys)
  exact ⟨g, hread⟩

/-- The grammar of a document, once it is read, has at its root the texts of the schema that the root
    stands for. -/
theorem accepts_iff_of_ofText (order : Grammar.Order) {t : RuleTable} {g : Grammar} (hcore : Core schema)
    (hceiling : HasCeiling options) (h : compile options schema = .ok t)
    (hread : Grammar.ofText t.text = .ok g) (text : String) :
    ∃ v, Grammar.checkIn order g text Grammar.startRule = .ok v ∧
      (v.accepted = true ↔ text.toList ∈ language options schema (start schema)) := by
  obtain ⟨name, s, hrun, rfl⟩ := compile_eq_ok h
  obtain ⟨resolver, hcompiled⟩ := compiled_document hcore hceiling False.elim hrun
  have hcomplete := hcompiled.session.table.complete
  -- the text has been read, so the names can be
  obtain ⟨g', hread', hholds, hhas, hnat, hleft⟩ :=
    hcomplete.exists_grammar (hcomplete.names_of_ofText hread).2
  obtain rfl : g' = g := Except.ok.inj (hread'.symm.trans hread)
  have hroot : s.table.Denotes "root" (language options schema (start schema)) :=
    hcompiled.rooted rfl rfl
  have hrule : g'.has Grammar.startRule = true := (hhas "root").trans hroot.known
  obtain ⟨v, hv, -⟩ := Grammar.checkIn_eq_ok order text hrule
  have hderives : text.toList ∈ language options schema (start schema) ↔
      Grammar.Derives g' (.rule Grammar.startRule) text.toList := by
    rw [← hroot.language g' hholds, Grammar.mem_language]
    rfl
  refine ⟨v, hv, fun haccepted => ?_, fun hmem => ?_⟩
  · exact hderives.2 (Grammar.derives_of_accepted hnat hrule hv haccepted)
  · exact Grammar.accepted_of_derives hnat hrule hleft hv (hderives.1 hmem)

/-! ## Exactness -/

/-- **Compiled grammars are exact.** The grammar of a document in the core fragment can be read, and
    a check of a text against its root accepts the texts of the schema that the root stands for. -/
theorem accepts_iff_mem_language (order : Grammar.Order) {t : RuleTable} (hcore : Core schema)
    (hceiling : HasCeiling options) (hkeys : HasReadableKeys schema)
    (h : compile options schema = .ok t) :
    ∃ g, Grammar.ofText t.text = .ok g ∧ ∀ text : String,
      ∃ v, Grammar.checkIn order g text Grammar.startRule = .ok v ∧
        (v.accepted = true ↔ text.toList ∈ language options schema (start schema)) := by
  obtain ⟨g, hread⟩ := exists_grammar hcore hceiling hkeys h
  exact ⟨g, hread, accepts_iff_of_ofText order hcore hceiling h hread⟩

/-- The root of a document of one text has that text as JSON writes it. -/
example : observe .standard (.obj [("enum", .arr [.str "a"])]) (fun _ s => s.table.find? "root") =
    some (some "(\"\\\"a\\\"\") space") := by
  decide +kernel

/-- The tag `a` or the tag `b`. -/
def tag : Json :=
  .obj [("enum", .arr [.str "a", .str "b"])]

/-- A reference to the tags. -/
def tagReference : Json :=
  .obj [("$ref", .str "#/definitions/tag")]

/-- At most two tags. -/
def tags : Json :=
  .obj [("items", tagReference), ("maxItems", .num (.whole 2)),
    ("definitions", .obj [("tag", tag)])]

theorem targetOf_tags : Schema.targetOf tags "#/definitions/tag" = some tag := by
  have hsegments : Pointer.segments "#/definitions/tag" = ["definitions".toList, "tag".toList] := by
    decide +kernel
  rw [Schema.targetOf, hsegments]
  rfl

theorem reaches_tags {S : Json} (h : Reaches tags tags S) :
    S = tags ∨ S = tagReference ∨ S = tag := by
  have hitems : Schema.inside tags tags = [tagReference] := rfl
  have htarget : Schema.inside tags tagReference = [tag] := by
    have hinside : Schema.inside tags tagReference =
      (Schema.targetOf tags "#/definitions/tag").toList := rfl
    rw [hinside, targetOf_tags]
    rfl
  have hend : Schema.inside tags tag = [] := rfl
  have hmem : S ∈ [tags, tagReference, tag] :=
    h.mem_of_closed List.mem_cons_self (by simp [hitems, htarget, hend])
  simpa using hmem

theorem core_tags : Core tags := by
  refine ⟨fun S hS => ?_, fun ref target S S' hS hrefers htarget hS' hrefers' => ?_⟩
  · rcases reaches_tags hS with rfl | rfl | rfl
    · exact ⟨0, some 2, rfl, Grammar.isWritable_of_lt (by decide),
        by simp [Grammar.isWritable_of_lt]⟩
    · exact trivial
    · exact List.cons_ne_nil _ _
  · -- only the items refer, and from the tags they refer to nothing is reached
    obtain ⟨fields, rfl, hshape, href⟩ := hrefers
    obtain ⟨fields', rfl, hshape', -⟩ := hrefers'
    rcases reaches_tags hS with hfields | hfields | hfields <;> cases hfields
    · cases hshape
    · cases href
      obtain rfl : tag = target := Option.some.inj (targetOf_tags.symm.trans htarget)
      have hend : Schema.inside tags tag = [] := rfl
      have hmem : Json.obj fields' ∈ [tag] :=
        hS'.mem_of_closed List.mem_cons_self (by simp [hend])
      cases List.mem_singleton.1 hmem
      cases hshape'
    · cases hshape

theorem hasCeiling_standard : HasCeiling .standard :=
  ⟨16, rfl⟩

theorem hasReadableKeys_tags : HasReadableKeys tags := by
  intro S hS
  rcases reaches_tags hS with rfl | rfl | rfl <;> intro key hkey <;> cases hkey

theorem exists_tags : ∃ t, compile .standard tags = .ok t :=
  exists_of_isOk (by decide +kernel)

theorem accepts_tagged : ∃ t g, compile .standard tags = .ok t ∧ Grammar.ofText t.text = .ok g ∧
    ∀ text : String, ∃ v, Grammar.checkIn .ascending g text Grammar.startRule = .ok v ∧
      (v.accepted = true ↔ text.toList ∈ language .standard tags (start tags)) := by
  obtain ⟨t, hrun⟩ := exists_tags
  obtain ⟨g, hread, hexact⟩ :=
    accepts_iff_mem_language .ascending core_tags hasCeiling_standard hasReadableKeys_tags hrun
  exact ⟨t, g, hrun, hread, hexact⟩

/-! ## Only JSON -/

/-- **Only JSON is generated.** What the grammar of a document in the core fragment accepts from its
    root is one JSON document, if all numbers in the constants are finite. -/
theorem isDocument_of_accepted {order : Grammar.Order} {t : RuleTable} {g : Grammar} {text : String}
    {v : Grammar.Verdict} (hcore : Core schema) (hceiling : HasCeiling options)
    (hfinite : ∀ S, Reaches schema schema S → HasFiniteConstants S)
    (h : compile options schema = .ok t) (hread : Grammar.ofText t.text = .ok g)
    (hcheck : Grammar.checkIn order g text Grammar.startRule = .ok v) (haccepted : v.accepted = true) :
    text.toList ∈ Standard.document := by
  obtain ⟨v', hv', hexact⟩ := accepts_iff_of_ofText order hcore hceiling h hread text
  obtain rfl : v' = v := Except.ok.inj (hv'.symm.trans hcheck)
  have hvalue := Schema.language_le_spaced hceiling hfinite (Schema.reaches_start schema schema)
  exact Standard.spaced_le_document (hvalue (hexact.1 haccepted))

theorem hasFiniteConstants_tags {S : Json} (h : Reaches tags tags S) : HasFiniteConstants S := by
  rcases reaches_tags h with rfl | rfl | rfl
  · exact trivial
  · exact trivial
  · intro v hv
    have hvalues : v ∈ [Json.str "a", Json.str "b"] := hv
    have htexts : v = .str "a" ∨ v = .str "b" := by simpa using hvalues
    rcases htexts with rfl | rfl <;> exact trivial

/-- A list of one tag. -/
theorem mem_language_tags : "[\"a\"]".toList ∈ language .standard tags (start tags) := by
  have hstart : start tags = tags := Schema.start_of_none rfl
  have hlist : language .standard tags tags = Schema.bracketed
      (Grammar.listed (Schema.mark ",") 0 (some 2) (language .standard tags tagReference)) :=
    Schema.language_eq .standard tags tags
  have hreference : language .standard tags tagReference = language .standard tags tag := by
    have heq : language .standard tags tagReference =
        ((Schema.targetOf tags "#/definitions/tag").map (language .standard tags)).getD 0 :=
      Schema.language_eq .standard tags tagReference
    rw [heq, targetOf_tags]
    rfl
  have htag : "\"a\"".toList ∈ language .standard tags tag := by
    rw [Schema.language_eq]
    exact Grammar.mem_sum.2 ⟨_, List.mem_cons_self, Schema.mem_mark "\"a\""⟩
  rw [hstart, hlist, hreference]
  refine Language.append_mem_mul (a := "[\"a\"".toList) ?_ (Schema.mem_mark "]")
  exact Language.append_mem_mul (Schema.mem_mark "[") ⟨1, by decide, by simp, htag⟩

theorem isDocument_oneTag : ∃ t g v, compile .standard tags = .ok t ∧ Grammar.ofText t.text = .ok g ∧
    Grammar.checkIn .ascending g "[\"a\"]" Grammar.startRule = .ok v ∧ v.accepted = true ∧
      "[\"a\"]".toList ∈ Standard.document := by
  obtain ⟨t, hrun⟩ := exists_tags
  obtain ⟨g, hread⟩ := exists_grammar core_tags hasCeiling_standard hasReadableKeys_tags hrun
  obtain ⟨v, hv, hexact⟩ :=
    accepts_iff_of_ofText .ascending core_tags hasCeiling_standard hrun hread "[\"a\"]"
  have haccepted := hexact.2 mem_language_tags
  exact ⟨t, g, v, hrun, hread, hv, haccepted, isDocument_of_accepted core_tags hasCeiling_standard
    (fun _ hS => hasFiniteConstants_tags hS) hrun hread hv haccepted⟩

end Compiler

end SchemaGrammar
