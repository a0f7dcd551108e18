import SchemaGrammar.Proofs.Compiler
import SchemaGrammar.Proofs.Schema.Parts
import SchemaGrammar.Proofs.Schema.Sites

set_option autoImplicit false

/-! # References are recorded before they are met

Resolving goes through a document place by place, compiling goes through it keyword by keyword. If
no reference stands below the keyword of references, where resolving does not look, it has recorded
all that compiling meets (`references_agree`). -/

namespace SchemaGrammar

open Json (Fields Part)
open Schema (RefersWithin)

namespace Resolver

variable {r : Resolver} {document : Json}

/-! ## Documents of which all references are recorded -/

/-- A reference has been recorded with something that it points at. -/
def Finds (r : Resolver) (ref : String) : Prop :=
  (r.find? ref).isSome = true

/-- No reference stands below the keyword of references. -/
def HasOpenReferences (document : Json) : Prop :=
  ∀ fields, Part (.obj fields) document → ∀ w, Part w (Schema.keyword fields refKey) →
    reference? w = none

theorem hasOpenReferences_of_objects (h : ∀ fields ∈ document.objects,
    (Schema.keyword fields refKey).objects.isEmpty = true) : HasOpenReferences document := by
  intro fields hfields w hw
  have hempty := List.isEmpty_iff.1 (h fields hfields.mem_objects)
  cases w with
  | obj inner => exact absurd hw.mem_objects (by simp [hempty])
  | _ => rfl

theorem notMem_of_hasOpenReferences (h : HasOpenReferences document) {path : Json.Path}
    {ref : String} (href : referenceAt? document path = some ref) :
    Json.Step.key refKey ∉ path := by
  intro hmem
  obtain ⟨p, q, rfl⟩ := List.append_of_mem hmem
  obtain ⟨w, hw, href⟩ := Option.bind_eq_some_iff.1 href
  rw [Json.at?_append] at hw
  obtain ⟨v, hv, hw⟩ := Option.bind_eq_some_iff.1 hw
  rw [Json.at?] at hw
  cases hchild : v.child? (.key refKey) with
  | none => simp [hchild] at hw
  | some u =>
    rw [hchild] at hw
    cases v with
    | obj fields =>
      have hkeyword : Schema.keyword fields refKey = u := by
        rw [Schema.keyword, show Fields.get? fields refKey = some u from hchild, Option.getD_some]
      have hnone := h fields (Json.part_of_at? hv) w (hkeyword ▸ Json.part_of_at? hw)
      rw [hnone] at href
      cases href
    | _ => cases hchild

/-- Resolving a document records every reference in it. -/
theorem knows_document {u : Unit} (hdistinct : document.HasDistinctKeys)
    (hopen : HasOpenReferences document)
    (hrun : Resolver.resolve 0 [] "" (Resolver.new [document]) = .ok u r) :
    RefersWithin r.Finds document := by
  obtain ⟨hsound, hknows⟩ := sound_resolve hrun
  intro w ref hw href
  obtain ⟨path, hpath⟩ := hw.exists_place hdistinct
  have hat : referenceAt? document path = some ref := by
    rw [referenceAt?, hpath]
    exact href
  have hknown := hknows path ref hat (notMem_of_hasOpenReferences hopen hat)
  rw [Finds, hsound.find? hknown]
  exact (hsound.resolvable ref hknown).target

/-! ## Failures of resolving -/

theorem failsOrdinarily_follow (ref : String) (segments : List (List Char)) (v : Json) :
    FailsOrdinarily (Pointer.follow ref segments v) := by
  induction segments generalizing v with
  | nil => exact .ok _
  | cons segment rest ih =>
    have hstep : FailsOrdinarily (Pointer.step? v segment) := by
      cases v with
      | arr items =>
        refine Fails.bind ?_ fun found => ?_
        · unfold Pointer.index?
          split_ifs
          · exact .ok _
          · split
            · exact .ok _
            · exact (Fails.misuse _).ordinarily
        · cases found <;> exact .ok _
      | _ => exact .ok _
    have hbroken : FailsOrdinarily (.error
        (Failure.brokenReference ref (String.ofList segment) v).raised :
        Except Failure (Json.Path × Json)) :=
      .error (Failure.IsOrdinary.raised (by simp [Failure.IsOrdinary, Failure.IsOfSchema]))
    refine hstep.bind fun found => ?_
    cases found with
    | none => exact hbroken
    | some step =>
      dsimp only
      cases v.child? step with
      | none => exact hbroken
      | some w => exact (ih w).bind fun _ => .ok _

theorem ReferenceFault.isOrdinary {ref : String} {e : Failure} (h : ReferenceFault document ref e) :
    e.IsOrdinary := by
  cases h with
  | remote _ => simp [Failure.IsOrdinary, Failure.IsOfSchema]
  | foreign _ => simp [Failure.IsOrdinary, Failure.IsOfSchema]
  | broken h => exact failsOrdinarily_follow _ _ _ _ h

end Resolver

namespace Compiler

open Resolver (HasOpenReferences referenceAt? IsResolvable refKey)
open Schema (LooksUp Reaches targetOf)

variable {document : Json}

/-- Compiling never fails for a reference that has not been recorded. -/
theorem compileDocument_ne_unresolved (options : Options) (hdistinct : document.HasDistinctKeys)
    (hopen : HasOpenReferences document) (ref : String) (s : Session) :
    compileDocument options (Session.new [document]) ≠
      .error (.unresolvedReference (.str ref)) s := by
  intro herror
  obtain ⟨r, hresolve, hrun⟩ | ⟨e, r, hresolve, hrun⟩ := compileDocument_run options document
  · rw [hrun] at herror
    have hknows := Resolver.knows_document hdistinct hopen hresolve
    have hrecords := Resolver.records_resolve hresolve
    have hruns : Session.Runs False ("" ≠ "") (· ≠ .unresolvedReference (.str ref))
        (Schema.Visited document document "" (prepared r))
        (Schema.visit options (Schema.depthLimit [document, document]) document "")
        (prepared r) := by
      -- every schema that is entered has only references that have been recorded
      refine Schema.runs_visit_of (P := fun S s => s.resolver = r ∧ RefersWithin r.Finds S) options
        (by simp) (fun S S' s s' hP henters => ?_) False.elim (fun S s e hP hfault => ?_) _ ""
        (orderly_prepared r) ⟨rfl, hknows⟩
      · have hinside := henters.inside (hP.1.symm ▸ hrecords)
        exact ⟨henters.resolver.trans hP.1, hknows.inside hP.2 hinside⟩
      · rintro rfl
        rcases hfault.isOrdinary with hordinary | ⟨value, hlooks, heq, hnone⟩
        · exact hordinary.2 _ rfl
        · have hvalue : value = .str ref := (Failure.unresolvedReference.inj heq).symm
          have hfound := hP.2.looksUp hlooks hvalue
          rw [Resolver.Finds, ← hP.1, hnone ref hvalue] at hfound
          cases hfound
    exact ((Work.leads_iff.1 hruns).2 _ _ herror).2 rfl
  · obtain ⟨rfl, -⟩ := EStateM.Result.error.inj (hrun.symm.trans herror)
    obtain ⟨path, other, -, hfault⟩ := Resolver.resolve_error hresolve
    exact hfault.isOrdinary.2 _ rfl

/-- **Resolving and compiling agree on references.** In a document without references below the
    keyword of references, resolving succeeds if and only if every reference, wherever it stands,
    has a target. It has then recorded, with its target, each reference that compiling looks up, so
    compiling does not fail for want of one. -/
theorem references_agree (options : Options) (hdistinct : document.HasDistinctKeys)
    (hopen : HasOpenReferences document) :
    ((∃ u r, Resolver.resolve 0 [] "" (Resolver.new [document]) = .ok u r) ↔
        ∀ path ref, referenceAt? document path = some ref → IsResolvable document ref) ∧
      (∀ u r, Resolver.resolve 0 [] "" (Resolver.new [document]) = .ok u r →
        ∀ S ref, Reaches document document S → LooksUp S (.str ref) →
          ∃ target, targetOf document ref = some target ∧ r.find? ref = some target) ∧
      ∀ ref s,
        compileDocument options (Session.new [document]) ≠
          .error (.unresolvedReference (.str ref)) s := by
  refine ⟨?_, fun u r hresolve S ref hreach hlooks => ?_,
    compileDocument_ne_unresolved options hdistinct hopen⟩
  · rw [Resolver.resolve_succeeds_iff]
    refine forall₃_congr fun path ref href => ?_
    simp [Resolver.notMem_of_hasOpenReferences hopen href]
  · have hknows := Resolver.knows_document hdistinct hopen hresolve
    obtain ⟨target, htarget⟩ :=
      Option.isSome_iff_exists.1 ((hknows.reaches hknows hreach).looksUp hlooks rfl)
    exact ⟨target, (Resolver.records_resolve hresolve).find? htarget, htarget⟩

/-- A property that is named like a keyword and refers to a definition that is, too. -/
def likeKeywords : Json :=
  .obj [("properties", .obj [("properties", .obj [("$ref", .str "#/definitions/enum")])]),
    ("definitions", .obj [("enum", .obj [("type", .str "null")])])]

theorem references_agree_likeKeywords :
    (∃ u r, Resolver.resolve 0 [] "" (Resolver.new [likeKeywords]) = .ok u r ∧
      ∃ target, targetOf likeKeywords "#/definitions/enum" = some target ∧
        r.find? "#/definitions/enum" = some target) ∧
    ∀ ref s, compileDocument .standard (Session.new [likeKeywords]) ≠
      .error (.unresolvedReference (.str ref)) s := by
  have hkeys : ∀ fields ∈ likeKeywords.objects, (Fields.keys fields).Nodup := by decide
  have htexts : ∀ fields ∈ likeKeywords.objects,
      (Schema.keyword fields refKey).objects.isEmpty = true := by decide
  obtain ⟨-, hfinds, hcompiles⟩ := references_agree .standard
    (fun fields hfields => hkeys fields hfields.mem_objects)
    (Resolver.hasOpenReferences_of_objects htexts)
  have hproperty : Json.obj [("$ref", .str "#/definitions/enum")] ∈
      Schema.inside likeKeywords likeKeywords := List.mem_singleton.2 rfl
  have hresolves : (match Resolver.resolve 0 [] "" (Resolver.new [likeKeywords]) with
      | .ok _ _ => true
      | .error _ _ => false) = true := by
    decide +kernel
  refine ⟨?_, hcompiles⟩
  cases hrun : Resolver.resolve 0 [] "" (Resolver.new [likeKeywords]) with
  | ok u r =>
    exact ⟨u, r, rfl, hfinds u r hrun _ _ (.head hproperty (.refl _ _)) (.reference (by decide))⟩
  | error e r => simp [hrun] at hresolves

/-- A reference to a definition is recorded, and compiling looks it up. -/
example : observe .standard (.obj [("$ref", .str "#/definitions/a"),
      ("definitions", .obj [("a", .obj [("type", .str "null")])])])
    (fun _ s => s.table.find? "root") = some (some "null") := by
  decide +kernel

/-- A property that is named like the keyword of references. -/
def likeReference : Json :=
  .obj [("properties", .obj [("$ref", .obj [("$ref", .str "#/definitions/a")])]),
    ("definitions", .obj [("a", .obj [("type", .str "null")])])]

/-- The reference for want of which compiling a document fails. -/
def unresolvedIn (document : Json) : Option String :=
  match compileDocument .standard (Session.new [document]) with
  | .error (.unresolvedReference (.str ref)) _ => some ref
  | _ => none

theorem exists_of_unresolvedIn {ref : String} (h : unresolvedIn document = some ref) :
    ∃ s, compileDocument .standard (Session.new [document]) =
      .error (.unresolvedReference (.str ref)) s := by
  unfold unresolvedIn at h
  split at h
  · rename_i ref' s hrun
    exact ⟨s, Option.some.inj h ▸ hrun⟩
  · cases h

/-- Resolving does not look below such a property, and compiling fails for the reference there. -/
theorem likeReference_unresolved :
    (∃ u r, Resolver.resolve 0 [] "" (Resolver.new [likeReference]) = .ok u r) ∧ ∃ s,
      compileDocument .standard (Session.new [likeReference]) =
        .error (.unresolvedReference (.str "#/definitions/a")) s := by
  have hresolves : (match Resolver.resolve 0 [] "" (Resolver.new [likeReference]) with
      | .ok _ _ => true
      | .error _ _ => false) = true := by
    decide +kernel
  have hfails : unresolvedIn likeReference = some "#/definitions/a" := by decide +kernel
  refine ⟨?_, exists_of_unresolvedIn hfails⟩
  cases hrun : Resolver.resolve 0 [] "" (Resolver.new [likeReference]) with
  | ok u r => exact ⟨u, r, rfl⟩
  | error e r => simp [hrun] at hresolves

end Compiler

end SchemaGrammar
