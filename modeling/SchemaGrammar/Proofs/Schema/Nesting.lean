import Mathlib.Data.Finset.Card
import Mathlib.Tactic.Linarith
import SchemaGrammar.Proofs.Schema.Linking
import SchemaGrammar.Proofs.Schema.Parts

set_option autoImplicit false

/-! # How deep schemas nest

A schema is entered from the one around it, which contains it, or from a reference. A reference leads
to its target only once, so between two targets there are only schemas that contain each other. If no
schema contains itself, these are all different, and there are no more of them than schemas that the
document can give rise to (`stages`). So there is always room for one more schema below the greatest
depth (`Room.enter`), and compiling never fails for want of depth (`runs_visit_grounded`). -/

namespace SchemaGrammar

theorem Assoc.set_set {α : Type} (pairs : List (String × α)) (key : String) (v w : α) :
    Assoc.set (Assoc.set pairs key v) key w = Assoc.set pairs key w := by
  induction pairs with
  | nil => simp [Assoc.set]
  | cons pair rest ih =>
    obtain ⟨k, other⟩ := pair
    rw [Assoc.set]
    split_ifs with hk
    · simp [Assoc.set, hk]
    · simp [Assoc.set, hk, ih]

namespace Schema

open Json (Fields Part)
open Relation (TransGen)
open Resolver (reference? reference?_eq_some)
open Session (Runs)

variable {document S S' T v w : Json} {fields inner : Fields}

/-! ## Schemas that contain others -/

/-- Compiling a schema means compiling the other one as well, each time: it is inside, and the first
    schema is no reference. -/
def Contains (document S S' : Json) : Prop :=
  S' ∈ inside document S ∧ ∀ ref, ¬ RefersTo ref S

/-- Compiling a schema means compiling it once more on the way. -/
def ContainsItself (document S : Json) : Prop :=
  TransGen (Contains document) S S

/-- No schema that is compiled on the way to a document contains itself. References may form cycles
    nevertheless. -/
def IsGrounded (document : Json) : Prop :=
  ∀ S, Reaches document document S → ¬ ContainsItself document S

/-- Where every schema outranks those that it contains, none contains itself. -/
theorem isGrounded_of_rank (rank : Json → Nat) (h : ∀ S S', Reaches document document S →
    Contains document S S' → rank S' < rank S) : IsGrounded document := by
  intro S hreaches hself
  have hlt : ∀ T, TransGen (Contains document) S T →
      Reaches document document T ∧ rank T < rank S := by
    intro T hT
    induction hT with
    | single hstep => exact ⟨hreaches.tail hstep.1, h S _ hreaches hstep⟩
    | tail _ hstep ih => exact ⟨ih.1.tail hstep.1, (h _ _ ih.1 hstep).trans ih.2⟩
  exact Nat.lt_irrefl _ (hlt S hself).2

/-! ## The schemas that a document gives rise to -/

/-- An object that can stand where a schema is compiled: one in the document, or one with a value of
    the document as its type. -/
inductive IsStage (document : Json) : Fields → Prop
  | part {fs} (h : Part (.obj fs) document) : IsStage document fs
  | typed {fs t} (h : Part (.obj fs) document) (ht : Part t document) :
      IsStage document (Fields.set fs "type" t)

/-- All such objects. -/
def stages (document : Json) : List Json :=
  document.objects.map Json.obj ++ document.objects.flatMap fun fields =>
    document.parts.map fun t => .obj (Fields.set fields "type" t)

theorem IsStage.mem_stages (h : IsStage document fields) : Json.obj fields ∈ stages document := by
  cases h with
  | part h => exact List.mem_append_left _ (List.mem_map_of_mem h.mem_objects)
  | typed h ht =>
    refine List.mem_append_right _ (List.mem_flatMap.2 ⟨_, h.mem_objects, ?_⟩)
    exact List.mem_map.2 ⟨_, ht.mem_parts, rfl⟩

theorem length_stages_le (document : Json) :
    (stages document).length ≤ document.size + document.size * document.size := by
  have hobjects : document.objects.length ≤ document.size := by
    rw [Json.objects_eq, ← Json.length_parts]
    exact List.length_filterMap_le _ _
  have hlength : (stages document).length =
      document.objects.length + document.objects.length * document.size := by
    simp [stages, List.length_flatMap, Json.length_parts]
  rw [hlength]
  exact Nat.add_le_add hobjects (Nat.mul_le_mul_right _ hobjects)

theorem IsStage.part_of_part (h : IsStage document fields) (hpart : Part (.obj inner) (.obj fields)) :
    IsStage document inner := by
  cases h with
  | part h => exact .part (hpart.trans h)
  | typed h ht =>
    cases hpart with
    | refl => exact .typed h ht
    | field hmem hpart =>
      rcases Assoc.mem_of_mem_set hmem with hold | heq
      · exact .part (hpart.trans ((Part.field hold .refl).trans h))
      · obtain ⟨-, rfl⟩ := Prod.mk.inj heq
        exact .part (hpart.trans ht)

/-- A schema with one of its types alone. -/
theorem IsStage.set {items : List Json} {t : Json} (h : IsStage document fields)
    (hget : Fields.get? fields "type" = some (.arr items)) (ht : t ∈ items) :
    IsStage document (Fields.set fields "type" t) := by
  cases h with
  | part h =>
    exact .typed h (((Part.item ht .refl).trans (part_of_get? hget)).trans h)
  | @typed fs types h htypes =>
    have heq : types = .arr items := by
      have hlookup : (Assoc.set fs "type" types).lookup "type" = some (.arr items) := hget
      rw [Assoc.lookup_set, if_pos rfl] at hlookup
      exact Option.some.inj hlookup
    subst heq
    rw [show Fields.set (Fields.set fs "type" (.arr items)) "type" t = Fields.set fs "type" t
      from Assoc.set_set _ _ _ _]
    exact .typed h ((Part.item ht .refl).trans htypes)

/-- Every object in a value can stand where a schema is compiled. -/
def HasStages (document v : Json) : Prop :=
  ∀ fields, Part (.obj fields) v → IsStage document fields

theorem HasStages.part (h : HasStages document v) (hw : Part w v) : HasStages document w :=
  fun fields hfields => h fields (hfields.trans hw)

theorem hasStages_document (document : Json) : HasStages document document :=
  fun _ => .part

theorem HasStages.inside (h : HasStages document v) (hw : w ∈ Schema.inside document v) :
    HasStages document w := by
  cases v with
  | obj fields =>
    cases comesFrom_of_mem_inside hw with
    | part hpart => exact h.part hpart
    | document hpart => exact (hasStages_document document).part hpart
    | text s =>
      intro inner hinner
      cases eq_of_part_str hinner
    | typed hget ht =>
      intro inner hinner
      exact ((h fields .refl).set hget ht).part_of_part hinner
  | _ => simp [Schema.inside] at hw

/-- Only such objects have schemas inside. -/
theorem mem_stages_of_mem_inside (hreaches : Reaches document document S)
    (h : S' ∈ inside document S) : S ∈ stages document := by
  have hstages : HasStages document S := by
    clear h
    induction hreaches with
    | refl => exact hasStages_document document
    | tail _ hstep ih => exact ih.inside hstep
  cases S with
  | obj fields => exact (hstages fields .refl).mem_stages
  | _ => simp [inside] at h

/-! ## References without a rule -/

/-- The references in a document. -/
def references (document : Json) : Finset String :=
  (document.parts.filterMap reference?).toFinset

theorem card_references_le (document : Json) : (references document).card ≤ document.size := by
  refine (List.toFinset_card_le _).trans ?_
  rw [← Json.length_parts]
  exact List.length_filterMap_le _ _

theorem mem_references {ref : String} (hreaches : Reaches document document S)
    (h : RefersTo ref S) : ref ∈ references document := by
  have hall : RefersWithin (· ∈ references document) document := fun w ref hw href =>
    List.mem_toFinset.2 (List.mem_filterMap.2 ⟨w, hw.mem_parts, href⟩)
  obtain ⟨fields, rfl, hshape, hkeyword⟩ := h
  exact (hall.reaches hall hreaches).looksUp (.reference hshape) hkeyword

/-- The references of a document that have no rule yet. -/
def unclaimed (document : Json) (s : Session) : Finset String :=
  (references document).filter fun ref => s.ruleNames.lookup ref = none

theorem unclaimed_subset {s s' : Session} (h : s.Remembers s') :
    unclaimed document s' ⊆ unclaimed document s := by
  intro ref href
  obtain ⟨hmem, hnone⟩ := Finset.mem_filter.1 href
  refine Finset.mem_filter.2 ⟨hmem, Option.eq_none_iff_forall_ne_some.2 fun name hname => ?_⟩
  rw [h ref name hname] at hnone
  cases hnone

/-- A reference from which a schema is entered had no rule and has one now. -/
theorem card_unclaimed_lt {s s' : Session} {ref : String} (hreaches : Reaches document document S)
    (href : RefersTo ref S) (h : Enters document S S' s s') :
    (unclaimed document s').card < (unclaimed document s).card := by
  obtain ⟨hnew, hclaimed⟩ := h.fresh ref href
  refine Finset.card_lt_card ((Finset.ssubset_iff_of_subset (unclaimed_subset h.remembers)).2
    ⟨ref, Finset.mem_filter.2 ⟨mem_references hreaches href, hnew⟩, fun hmem => ?_⟩)
  rw [(Finset.mem_filter.1 hmem).2] at hclaimed
  cases hclaimed

/-! ## Room for more schemas -/

/-- The schemas that were entered since the last reference: different ones that contain each other. -/
structure IsChain (document S : Json) (chain : List Json) : Prop where
  nodup : chain.Nodup
  stages : ∀ T ∈ chain, T ∈ stages document
  contain : ∀ T ∈ chain, TransGen (Contains document) T S

theorem IsChain.length_le {chain : List Json} (h : IsChain document S chain) :
    chain.length ≤ (Schema.stages document).length :=
  (h.nodup.subperm h.stages).length_le

theorem IsChain.cons {chain : List Json} (h : IsChain document S chain)
    (hreaches : Reaches document document S) (hself : ¬ ContainsItself document S)
    (hcontains : Contains document S S') : IsChain document S' (S :: chain) := by
  refine ⟨List.nodup_cons.2 ⟨fun hmem => hself (h.contain S hmem), h.nodup⟩, ?_, ?_⟩
  · exact List.forall_mem_cons.2 ⟨mem_stages_of_mem_inside hreaches hcontains.1, h.stages⟩
  · exact List.forall_mem_cons.2 ⟨.single hcontains, fun T hT => (h.contain T hT).tail hcontains⟩

/-- How much room a chain of schemas takes, with the references that can still start another one. -/
def roomFor (document : Json) (s : Session) : Nat :=
  ((unclaimed document s).card + 1) * ((stages document).length + 1)

/-- The depth that is left is enough for all schemas that are still to come. -/
structure Room (document : Json) (depth : Nat) (S : Json) (s : Session) : Prop where
  records : s.resolver.Records document
  reaches : Reaches document document S
  enough : ∃ chain, IsChain document S chain ∧ roomFor document s ≤ depth + chain.length

theorem not_room_zero (S : Json) (s : Session) : ¬ Room document 0 S s := by
  rintro ⟨-, -, chain, hchain, henough⟩
  have hlength := hchain.length_le
  have hone : (stages document).length + 1 ≤ roomFor document s :=
    Nat.le_mul_of_pos_left _ (Nat.succ_pos _)
  omega

/-- **One step deeper.** Entering a schema takes one level: a containing schema makes the chain
    longer, and a reference uses itself up for a new chain. -/
theorem Room.enter {depth : Nat} {s s' : Session} (hgrounded : IsGrounded document)
    (h : Room document (depth + 1) S s) (henters : Enters document S S' s s') :
    Room document depth S' s' := by
  obtain ⟨hrecords, hreaches, chain, hchain, henough⟩ := h
  have hinside := henters.inside hrecords
  refine ⟨henters.resolver ▸ hrecords, hreaches.tail hinside, ?_⟩
  by_cases href : ∃ ref, RefersTo ref S
  · obtain ⟨ref, href⟩ := href
    refine ⟨[], ⟨List.nodup_nil, by simp, by simp⟩, ?_⟩
    have hfewer : roomFor document s' + ((stages document).length + 1) ≤ roomFor document s := by
      rw [roomFor, roomFor, ← Nat.succ_mul]
      exact Nat.mul_le_mul_right _ (Nat.succ_le_succ (card_unclaimed_lt hreaches href henters))
    have hlength := hchain.length_le
    rw [List.length_nil]
    omega
  · have hcontains : Contains document S S' := ⟨hinside, fun ref hS => href ⟨ref, hS⟩⟩
    refine ⟨S :: chain, hchain.cons hreaches (hgrounded S hreaches) hcontains, ?_⟩
    have hless : roomFor document s' ≤ roomFor document s :=
      Nat.mul_le_mul_right _ (Nat.succ_le_succ (Finset.card_le_card (unclaimed_subset henters.remembers)))
    rw [List.length_cons]
    omega

/-- At the top there is room. -/
theorem roomFor_le (document : Json) (s : Session) :
    roomFor document s ≤ depthLimit [document, document] := by
  have hreferences : (unclaimed document s).card ≤ document.size :=
    (Finset.card_filter_le _ _).trans (card_references_le document)
  have hstages := length_stages_le document
  have hdepth : depthLimit [document, document] =
      2 * (2 * document.size + 1) * (2 * document.size + 1) * (2 * document.size + 1) := by
    simp [depthLimit, Json.sizeOfItems, Nat.two_mul]
  rw [hdepth]
  calc roomFor document s
      ≤ (document.size + 1) * (document.size + document.size * document.size + 1) :=
        Nat.mul_le_mul (by omega) (by omega)
    _ ≤ 2 * (2 * document.size + 1) * (2 * document.size + 1) * (2 * document.size + 1) := by
        nlinarith [Nat.zero_le (document.size * document.size),
          Nat.zero_le (document.size * document.size * document.size)]

theorem room_prepared {s : Session} {depth : Nat} (hrecords : s.resolver.Records document)
    (hdepth : depthLimit [document, document] ≤ depth) : Room document depth document s :=
  ⟨hrecords, .refl document document, [], ⟨List.nodup_nil, by simp, by simp⟩,
    (roomFor_le document s).trans hdepth⟩

/-- **Enough depth.** Where no schema contains itself, compiling fails only in ways that a schema is
    to blame for. -/
theorem runs_visit_grounded {s : Session} (options : Options) (hgrounded : IsGrounded document)
    (depth : Nat) (hint : String) (hs : s.Orderly False) (hroom : Room document depth S s) :
    Runs False (hint ≠ "") Failure.IsOfSchema (Visited document S hint s)
      (visit options depth S hint) s :=
  runs_visit_within (P := fun depth S s => Room document depth S s) options
    (fun S s hzero => absurd hzero (not_room_zero S s))
    (fun _ _ _ _ _ h henters => h.enter hgrounded henters) False.elim
    (fun _ _ _ _ _ hfault => hfault.isOfSchema) depth hint hs hroom

end Schema

end SchemaGrammar
