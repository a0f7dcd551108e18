import SchemaGrammar.Proofs.Recording
import SchemaGrammar.Proofs.Schema.Nesting

set_option autoImplicit false

/-! # Compiling ends

If no schema that a document reaches contains itself, the document is compiled to a grammar or fails
in a way that it is to blame for, whatever references it has and however they refer to each other
(`compile_ends`). It is only by the references of combined schemas that a schema can contain itself,
since these are followed each time; such a document is compiled for ever (`selfMerging_never_ends`). -/

namespace SchemaGrammar

namespace Metaschema

theorem failsOrdinarily_checkAddress (v : Json) : FailsOrdinarily (checkAddress v) := by
  unfold checkAddress
  split
  · split
    · exact .error (by simp [Failure.IsOrdinary, Failure.IsOfSchema])
    · exact .ok ()
  · split_ifs
    · exact .ok ()
    · exact (Fails.misuse _).ordinarily

theorem failsOrdinarily_checkDialect (v : Json) : FailsOrdinarily (checkDialect v) := by
  cases v with
  | bool _ => exact .ok ()
  | _ =>
    refine (Schema.misuses_containsText _ _).ordinarily.bind fun found => ?_
    cases found with
    | false => exact .ok ()
    | true =>
      refine (Schema.misuses_fieldOf _ _).ordinarily.bind fun dialect => ?_
      exact (Schema.misuses_checkKey dialect).ordinarily.bind fun _ => failsOrdinarily_checkAddress dialect

theorem failsOrdinarily_checkIn (dialects : Dialects) (v : Json) :
    FailsOrdinarily (checkIn dialects v) := by
  refine (failsOrdinarily_checkDialect v).bind fun _ => ?_
  cases issuesIn dialects v with
  | some found => exact .ok _
  | none => exact .error Failure.isOrdinary_tooManyDigits

end Metaschema

namespace Compiler

open Json (Fields)
open Schema (IsGrounded Reaches depthLimit)

variable {options : Options} {schema : Json}

/-- A document without schemas that contain themselves never fails for want of depth. -/
theorem isOfSchema_of_grounded {e : Failure} {s : Session} (hgrounded : IsGrounded schema)
    (h : compileDocument options (Session.new [schema]) = .error e s) : e.IsOfSchema := by
  obtain ⟨resolver, hresolve, hrun⟩ | ⟨e', resolver, hresolve, hrun⟩ :=
    compileDocument_run options schema
  · have hroom : Schema.Room schema (depthLimit [schema, schema]) schema (prepared resolver) :=
      Schema.room_prepared (Resolver.records_resolve hresolve) le_rfl
    have hruns := Schema.runs_visit_grounded options hgrounded _ "" (orderly_prepared resolver) hroom
    exact ((Work.leads_iff.1 hruns).2 e s (hrun.symm.trans h)).2
  · obtain ⟨rfl, -⟩ := EStateM.Result.error.inj (hrun.symm.trans h)
    obtain ⟨_, _, -, hfault⟩ := Resolver.resolve_error hresolve
    exact hfault.isOrdinary.1

/-- **Compiling ends.** A document in which no schema contains itself has a grammar, or compiling it
    fails in a way that the document is to blame for. -/
theorem compile_ends (options : Options) (hgrounded : IsGrounded schema) :
    (∃ t, compile options schema = .ok t) ∨
      ∃ e, e.IsOfSchema ∧ compile options schema = .error e := by
  obtain ⟨e, hcheck, hrun⟩ | ⟨issues, -, -, hrun⟩ | hrun := compile_cases options schema
  · exact .inr ⟨e, (Metaschema.failsOrdinarily_checkIn _ schema e hcheck).1, hrun⟩
  · exact .inr ⟨_, by simp [Failure.IsOfSchema], hrun⟩
  · rw [outcome] at hrun
    cases hdocument : compileDocument options (Session.new [schema]) with
    | ok name s => exact .inl ⟨s.table, by rw [hrun, hdocument]⟩
    | error e s => exact .inr ⟨e, isOfSchema_of_grounded hgrounded hdocument, by rw [hrun, hdocument]⟩

/-- A schema that refers to the whole document. -/
def wholeReference : Json :=
  .obj [("$ref", .str "#")]

/-- A combined schema that has itself as a property, by way of a reference. -/
def inheriting : Json :=
  .obj [("allOf", .arr [.obj [("$ref", .str "#/definitions/base")]]),
    ("definitions", .obj [("base", .obj [("properties", .obj [("next", wholeReference)])])])]

theorem inside_inheriting : Schema.inside inheriting inheriting = [wholeReference] := by
  have hsegments : Pointer.segments "#/definitions/base" =
      ["definitions".toList, "base".toList] := by
    decide +kernel
  have htarget : Schema.targetOf inheriting "#/definitions/base" =
      some (.obj [("properties", .obj [("next", wholeReference)])]) := by
    rw [Schema.targetOf, hsegments]
    rfl
  have hvalue : Schema.partValue inheriting (.obj [("$ref", .str "#/definitions/base")]) =
      .obj [("properties", .obj [("next", wholeReference)])] := by
    change (Schema.targetOf inheriting "#/definitions/base").getD .null = _
    rw [htarget]
    rfl
  have hparts : Schema.partsOf [("allOf", .arr [.obj [("$ref", .str "#/definitions/base")]]),
      ("definitions", .obj [("base", .obj [("properties", .obj [("next", wholeReference)])])])] =
      [.obj [("$ref", .str "#/definitions/base")]] := rfl
  change (Schema.combinedProperties inheriting _).map Prod.snd = _
  rw [Schema.combinedProperties, Schema.sharedConstants, hparts]
  simp only [List.filterMap_cons, List.filterMap_nil, List.flatMap_cons, List.flatMap_nil,
    Schema.partConstants, Schema.partFields, hvalue]
  rfl

theorem inheriting_ends : (∃ t, compile .standard inheriting = .ok t) ∨
    ∃ e, e.IsOfSchema ∧ compile .standard inheriting = .error e := by
  have hnext : Schema.inside inheriting wholeReference = [inheriting] := by
    have hnone : Pointer.segments "#" = [] := by decide +kernel
    change (Schema.targetOf inheriting "#").toList = _
    rw [Schema.targetOf, hnone]
    rfl
  refine compile_ends .standard (Schema.isGrounded_of_rank Json.size fun S S' hreaches hcontains => ?_)
  have hmem : S ∈ [inheriting, wholeReference] :=
    hreaches.mem_of_closed List.mem_cons_self (by simp [inside_inheriting, hnext])
  obtain ⟨hinside, hplain⟩ := hcontains
  rcases List.mem_pair.1 hmem with rfl | rfl
  · rw [inside_inheriting] at hinside
    obtain rfl := List.mem_singleton.1 hinside
    decide
  · exact absurd ⟨_, rfl, rfl, rfl⟩ (hplain "#")

/-! ## A schema that contains itself -/

/-- A reference to the only definition. -/
def reference : Json :=
  .obj [("$ref", .str "#/definitions/a")]

/-- A schema that merges the definition. -/
def merging : Json :=
  .obj [("allOf", .arr [reference])]

/-- A definition with a property that merges the definition. -/
def merged : Json :=
  .obj [("properties", .obj [("x", merging)])]

/-- A document that merges the definition. -/
def selfMerging : Json :=
  .obj [("allOf", .arr [reference]), ("definitions", .obj [("a", merged)])]

/-- What merges the definition fails wherever its property does. -/
theorem visitWith_merges {visit : Schema.Visit} {fields : Fields} {s : Session} (hint : String)
    (hshape : Schema.shape fields = .allOf)
    (hparts : Schema.keyword fields "allOf" = .arr [reference])
    (hfind : s.resolver.find? "#/definitions/a" = some merged)
    (hvisit : ∀ hint, ∃ s', visit merging hint s = .error .endless s') :
    ∃ s', Schema.visitWith visit .standard (.obj fields) hint s = .error .endless s' := by
  have hmerged : [reference].foldlM Schema.addBranch ⟨[], [], []⟩ s =
      .ok ⟨["x"], [("x", merging)], []⟩ s := by
    have htarget : Session.target (.str "#/definitions/a") s = .ok merged s := by
      rw [Session.target_run, Resolver.lookUp]
      dsimp only [Schema.checkKey, bind, Except.bind]
      rw [hfind]
      rfl
    refine Work.bind_eq_ok.2 ⟨_, s, Work.bind_eq_ok.2 ⟨false, s, rfl, ?_⟩, rfl⟩
    refine Work.bind_eq_ok.2 ⟨true, s, rfl, ?_⟩
    refine Work.bind_eq_ok.2 ⟨_, s, rfl, Work.bind_eq_ok.2 ⟨merged, s, htarget, ?_⟩⟩
    rfl
  unfold Schema.visitWith
  dsimp only
  rw [hshape]
  obtain ⟨s', hs'⟩ := hvisit (Schema.subName hint "x")
  refine ⟨s', ?_⟩
  refine Work.bind_eq_error.2 (.inr ⟨[reference], s, ?_, ?_⟩)
  · rw [show (Schema.Site.keyword ⟨fields, hint, Schema.ruleNameFor hint⟩ "allOf") = _ from hparts]
    rfl
  refine Work.bind_eq_error.2 (.inr ⟨_, s, hmerged, ?_⟩)
  dsimp only
  rw [if_pos (by rfl)]
  refine Work.bind_eq_error.2 (.inl ?_)
  refine Work.bind_eq_error.2 (.inr ⟨["x"], s, rfl, ?_⟩)
  refine Work.bind_eq_error.2 (.inl ?_)
  refine Work.bind_eq_error.2 (.inl ?_)
  exact Work.bind_eq_error.2 (.inl hs')

/-- Merging the definition takes more depth than there is. -/
theorem visit_merging {s : Session} (hfind : s.resolver.find? "#/definitions/a" = some merged)
    (depth : Nat) (hint : String) :
    ∃ s', Schema.visit .standard depth merging hint s = .error .endless s' := by
  induction depth generalizing hint with
  | zero => exact ⟨s, rfl⟩
  | succ depth ih => exact visitWith_merges hint rfl rfl hfind ih

/-- Resolving records what the reference points at. -/
theorem find?_selfMerging {u : Unit} {r : Resolver}
    (hresolve : Resolver.resolve 0 [] "" (Resolver.new [selfMerging]) = .ok u r) :
    r.find? "#/definitions/a" = some merged := by
  have hkeys : ∀ fields ∈ selfMerging.objects, (Fields.keys fields).Nodup := by decide
  have htexts : ∀ fields ∈ selfMerging.objects,
      (Schema.keyword fields Resolver.refKey).objects.isEmpty = true := by decide
  have hknows := Resolver.knows_document (fun fields hfields => hkeys fields hfields.mem_objects)
    (Resolver.hasOpenReferences_of_objects htexts) hresolve
  have hallOf : Json.Part (.arr [reference]) selfMerging := .field List.mem_cons_self .refl
  have hpart : Json.Part reference selfMerging := (Json.Part.item List.mem_cons_self .refl).trans hallOf
  obtain ⟨v, hv⟩ := Option.isSome_iff_exists.1 (hknows reference "#/definitions/a" hpart rfl)
  have hsegments : Pointer.segments "#/definitions/a" = ["definitions".toList, "a".toList] := by
    decide +kernel
  have htarget : Schema.targetOf selfMerging "#/definitions/a" = some merged := by
    rw [Schema.targetOf, hsegments]
    rfl
  rw [hv, ← (Resolver.records_resolve hresolve).find? hv, htarget]

/-- **A document that is compiled for ever.** Whatever depth is allowed, it is not enough. -/
theorem selfMerging_never_ends :
    (∃ r, Resolver.resolve 0 [] "" (Resolver.new [selfMerging]) = .ok () r ∧ ∀ depth,
      ∃ s, Schema.visit .standard depth selfMerging "" (prepared r) = .error .endless s) ∧
    compile .standard selfMerging = .error .endless := by
  have hnever {r : Resolver} (hfind : r.find? "#/definitions/a" = some merged) (depth : Nat) :
      ∃ s, Schema.visit .standard depth selfMerging "" (prepared r) = .error .endless s := by
    cases depth with
    | zero => exact ⟨prepared r, rfl⟩
    | succ depth => exact visitWith_merges (s := prepared r) "" rfl rfl hfind (visit_merging hfind depth)
  obtain ⟨r, hresolve, hrun⟩ | ⟨e, r, hresolve, -⟩ := compileDocument_run .standard selfMerging
  · have hends := hnever (find?_selfMerging hresolve)
    refine ⟨⟨r, hresolve, hends⟩, ?_⟩
    obtain ⟨s, hs⟩ := hends (depthLimit [selfMerging, selfMerging])
    rw [compile_of_unchecked rfl, outcome, hrun, hs]
  · have hresolves : (match Resolver.resolve 0 [] "" (Resolver.new [selfMerging]) with
        | .ok _ _ => true
        | .error _ _ => false) = true := by
      decide +kernel
    simp [hresolve] at hresolves

end Compiler

end SchemaGrammar
