import SchemaGrammar.Proofs.Schema.Inside
import SchemaGrammar.Proofs.Schema.Language
import SchemaGrammar.Proofs.Schema.Requests
import SchemaGrammar.Proofs.Schema.Resolving

set_option autoImplicit false

/-! # What compiling a schema leaves behind

The invariant of a session is that its table is sound and that the rule of each reference whose
target is done has the language of the target. A reference whose target is not done is `busy`; as
references do not lead back to themselves, it is not met again before it is done. Compiling a schema
keeps the invariant and gives a rule with the schema's language (`Compiled`). -/

namespace SchemaGrammar

open Grammar (separated repeated listed)
open RuleTable (HasPlainDigits Requestable escapeName keepsInName)

/-- References that had a rule still have it. -/
def Session.Remembers (s s' : Session) : Prop :=
  ∀ ref name, s.ruleNames.lookup ref = some name → s'.ruleNames.lookup ref = some name

theorem Session.Remembers.refl (s : Session) : s.Remembers s :=
  fun _ _ h => h

theorem Session.Remembers.trans {s s' s'' : Session} (h : s.Remembers s') (h' : s'.Remembers s'') :
    s.Remembers s'' :=
  fun ref name hname => h' ref name (h ref name hname)

namespace Schema

section Invariant

variable (options : Options) (document : Json) (plain : Prop)

/-- The digits of all keys below a schema are in names of the table. -/
def Covers (t : RuleTable) (S : Json) : Prop :=
  ∀ S', Reaches document S S' → ∀ key ∈ keysOf S', ∃ name, t.has name = true ∧
    ∀ c ∈ key.toList, keepsInName c = true → c ∈ name.toList

/-- A session in which references are compiled properly, apart from the busy ones. -/
structure SoundSession (busy : String → Prop) (s : Session) : Prop where
  table : s.table.Sound plain
  resolver : s.resolver.Records document
  names : ∀ ref name, s.ruleNames.lookup ref = some name → busy ref ∨
    ∃ target, targetOf document ref = some target ∧
      s.table.Denotes name (language options document target) ∧ Covers document s.table target

/-- What work on schemas leaves behind: a sound session with more rules and the same root. -/
structure Proceeds (busy : String → Prop) (s s' : Session) : Prop where
  session : SoundSession options document plain busy s'
  extends_ : s.table.Extends s'.table
  remembers : s.Remembers s'
  root : s'.table.find? "root" = s.table.find? "root"

/-- What compiling a schema leaves behind. Only the empty hint gives the root. -/
structure Compiled (busy : String → Prop) (S : Json) (hint : String) (s s' : Session)
    (name : String) : Prop where
  session : SoundSession options document plain busy s'
  extends_ : s.table.Extends s'.table
  remembers : s.Remembers s'
  denotes : s'.table.Denotes name (language options document S)
  covers : Covers document s'.table S
  kept : hint ≠ "" → s'.table.find? "root" = s.table.find? "root"
  rooted : hint = "" → s.table.find? "root" = none →
    s'.table.Denotes "root" (language options document (start S))

/-- No busy reference is met below the schema. -/
def IsFree (busy : String → Prop) (S : Json) : Prop :=
  ∀ ref, busy ref → ∀ S', Reaches document S S' → ¬ RefersTo ref S'

/-- A way to compile schemas that is exact wherever it succeeds. -/
def IsExact (visit : Visit) : Prop :=
  ∀ busy S hint s s' name, visit S hint s = .ok name s' →
    SoundSession options document plain busy s → Reaches document document S →
    (plain → HasPlainDigits hint) → IsFree document busy S →
    Compiled options document plain busy S hint s s' name

end Invariant

section Frames

variable {options : Options} {document : Json} {plain : Prop} {busy : String → Prop}
variable {s s' s'' : Session} {S : Json} {fields : Json.Fields} {hint name body : String}

theorem Covers.extend {t t' : RuleTable} (h : Covers document t S) (ht : t.Extends t') :
    Covers document t' S := by
  intro S' hreach key hkey
  obtain ⟨name, hname, hchars⟩ := h S' hreach key hkey
  exact ⟨name, ht.has hname, hchars⟩

/-- A schema is covered if its own keys and all schemas inside are. -/
theorem covers_of_inside {t : RuleTable} (hinside : ∀ S' ∈ inside document S, Covers document t S')
    (hkeys : ∀ key ∈ keysOf S, ∃ name, t.has name = true ∧
      ∀ c ∈ key.toList, keepsInName c = true → c ∈ name.toList) : Covers document t S := by
  intro S' hreach
  rcases Relation.ReflTransGen.cases_head hreach with rfl | ⟨S₁, hfirst, hrest⟩
  · exact hkeys
  · exact hinside S₁ hfirst S' hrest

theorem IsFree.inside {S' : Json} (h : IsFree document busy S) (hinside : S' ∈ inside document S) :
    IsFree document busy S' :=
  fun ref hbusy T hT => h ref hbusy T (.head hinside hT)

theorem SoundSession.withTable {t : RuleTable} (h : SoundSession options document plain busy s)
    (ht : t.Sound plain) (hextends : s.table.Extends t) :
    SoundSession options document plain busy { s with table := t } := by
  refine ⟨ht, h.resolver, fun ref name hname => (h.names ref name hname).imp_right ?_⟩
  rintro ⟨target, htarget, hdenotes, hcovers⟩
  exact ⟨target, htarget, hdenotes.extend hextends, hcovers.extend hextends⟩

theorem SoundSession.grows (h : SoundSession options document plain busy s)
    (hgrows : Session.Grows plain s s') : SoundSession options document plain busy s' := by
  rw [hgrows.same]
  exact h.withTable hgrows.table.sound hgrows.table.extends_

theorem Proceeds.refl (h : SoundSession options document plain busy s) :
    Proceeds options document plain busy s s :=
  ⟨h, .refl _, .refl s, rfl⟩

theorem Proceeds.trans (h : Proceeds options document plain busy s s')
    (h' : Proceeds options document plain busy s' s'') :
    Proceeds options document plain busy s s'' :=
  ⟨h'.session, h.extends_.trans h'.extends_, h.remembers.trans h'.remembers, h'.root.trans h.root⟩

theorem Proceeds.grows (h : Proceeds options document plain busy s s')
    (hgrows : Session.Grows plain s' s'') : Proceeds options document plain busy s s'' := by
  refine ⟨h.session.grows hgrows, h.extends_.trans hgrows.table.extends_, ?_,
    hgrows.table.root.trans h.root⟩
  rw [hgrows.same]
  exact h.remembers

theorem Compiled.proceeds (h : Compiled options document plain busy S hint s s' name)
    (hhint : hint ≠ "") : Proceeds options document plain busy s s' :=
  ⟨h.session, h.extends_, h.remembers, h.kept hhint⟩

/-! ## The rule of a schema -/

/-- The rule of a schema, whose body is written over a session that compiling what is inside has
    left. The root is free and the schema's own, or it was given away inside. -/
theorem compiled_addRule {s₁ : Session} (hs : SoundSession options document plain busy s₁)
    (hextends : s.table.Extends s₁.table) (hremembers : s.Remembers s₁)
    (hhint : plain → HasPlainDigits hint) (hw : s₁.table.Writes body (language options document S))
    (hcovers : Covers document s₁.table S)
    (hkept : hint ≠ "" → s₁.table.find? "root" = s.table.find? "root")
    (hroot : hint = "" → s.table.find? "root" = none →
      s₁.table.find? "root" = none ∧ start S = S ∨
        s₁.table.Denotes "root" (language options document (start S)))
    (hrun : Session.addRule (ruleNameFor hint) body s₁ = .ok name s') :
    Compiled options document plain busy S hint s s' name := by
  obtain ⟨t, hadd, rfl⟩ := Session.addRule_eq_ok.1 hrun
  obtain ⟨hadds, hsound, hdenotes⟩ := hs.table.add (requestable_ruleNameFor hhint) hw hadd
  refine ⟨hs.withTable hsound hadds.extends, hextends.trans hadds.extends, hremembers, hdenotes,
    hcovers.extend hadds.extends, fun hne => ?_, fun hempty hnone => ?_⟩
  · have hslot := hadds.isSlot.ne_root (escapeName_ruleNameFor hne)
    exact (hadds.find?_of_ne hslot.symm).trans (hkept hne)
  · rcases hroot hempty hnone with ⟨hfree, hstart⟩ | hgiven
    · have hescape : escapeName (ruleNameFor hint) = "root" := by
        rw [hempty, ruleNameFor_empty]
        decide
      have hslot := RuleTable.add_of_find?_eq_none s₁.table _ body (by rw [hescape]; exact hfree)
      rw [hadd, hescape] at hslot
      rw [hstart]
      obtain rfl : name = "root" := hslot
      exact hdenotes
    · exact hgiven.extend hadds.extends

theorem keysOf_of_shape (h : shape fields ≠ .object) : keysOf (.obj fields) = [] :=
  if_neg h

theorem start_of_shape (h : shape fields ≠ .object) : start (.obj fields) = .obj fields :=
  start_of_none (if_neg h)

/-- The rule of a schema that is no object. -/
theorem Proceeds.addRule {s₁ : Session} (h : Proceeds options document plain busy s s₁)
    (hshape : shape fields ≠ .object) (hhint : plain → HasPlainDigits hint)
    (hw : s₁.table.Writes body (language options document (.obj fields)))
    (hcovers : ∀ S' ∈ inside document (.obj fields), Covers document s₁.table S')
    (hrun : Session.addRule (ruleNameFor hint) body s₁ = .ok name s') :
    Compiled options document plain busy (.obj fields) hint s s' name :=
  compiled_addRule h.session h.extends_ h.remembers hhint hw
    (covers_of_inside hcovers (by simp [keysOf_of_shape hshape])) (fun _ => h.root)
    (fun _ hnone => .inl ⟨h.root.trans hnone, start_of_shape hshape⟩) hrun

/-- A built-in rule that is the rule of a schema. -/
theorem compiled_addNamed {own asked : String} (hs : SoundSession options document plain busy s)
    (hhint : hint = "" ∧ asked = "root" ∨ hint ≠ "" ∧ escapeName asked ≠ "root" ∧
      (asked = own ∨ Requestable plain asked))
    (hlanguage : language options document (.obj fields) = builtin own)
    (hshape : shape fields ≠ .object) (hinside : inside document (.obj fields) = [])
    (hrun : Session.addNamed asked own s = .ok name s') :
    Compiled options document plain busy (.obj fields) hint s s' name := by
  obtain ⟨t, hwork, rfl⟩ := Session.onTable_eq_ok.1 hrun
  obtain ⟨rule, hrule, hadd⟩ := RuleTable.addNamed_eq_ok hwork
  have hbuiltin : builtin own = Builtin.languageOf rule.body := by rw [builtin, hrule]
  have hasked : asked = own ∨ Requestable plain asked := by
    rcases hhint with ⟨-, rfl⟩ | ⟨-, -, hasked⟩
    · exact .inr ⟨by decide, by decide, fun _ => by decide⟩
    · exact hasked
  obtain ⟨hadds, hsound, hdenotes⟩ := hs.table.addBuiltin hrule hasked hadd
  rw [← hbuiltin, ← hlanguage] at hdenotes
  refine ⟨hs.withTable hsound hadds.extends_, hadds.extends_, .refl s, hdenotes,
    covers_of_inside (by simp [hinside]) (by simp [keysOf_of_shape hshape]), fun hne => ?_,
    fun hempty hnone => ?_⟩
  · obtain ⟨hempty, -⟩ | ⟨-, hroot, -⟩ := hhint
    · exact absurd hempty hne
    · exact (hadds.grows hsound hroot).root
  · obtain ⟨-, rfl⟩ | ⟨hne, -⟩ := hhint
    · have hslot := RuleTable.add_of_find?_eq_none s.table "root" rule.body hnone
      rw [RuleTable.addBuiltinFrom_slot hadd] at hslot
      rw [start_of_shape hshape]
      obtain rfl : name = "root" := hslot
      exact hdenotes
    · exact absurd hempty hne

end Frames

/-! ## Schemas one after the other -/

section Loops

variable {options : Options} {document : Json} {plain : Prop} {busy : String → Prop}
variable {visit : Visit} (hvisit : IsExact options document plain visit)
variable {s s' : Session}

include hvisit

/-- Schemas that are compiled one after the other, with hints that depend on their places and are
    never empty. -/
theorem zipIdx_compiled {schemas : List Json} {hintOf : Nat → String} (first : Nat)
    {names : List String} (hs : SoundSession options document plain busy s)
    (hhint : ∀ i, hintOf i ≠ "" ∧ (plain → HasPlainDigits (hintOf i)))
    (h : ∀ S ∈ schemas, Reaches document document S ∧ IsFree document busy S)
    (hrun : (schemas.zipIdx first).mapM (fun x => visit x.1 (hintOf x.2)) s = .ok names s') :
    Proceeds options document plain busy s s' ∧
      List.Forall₂ s'.table.Denotes names (schemas.map (language options document)) ∧
      ∀ S ∈ schemas, Covers document s'.table S := by
  induction schemas generalizing s names first with
  | nil =>
    obtain ⟨rfl, rfl⟩ := Work.pure_eq_ok.1 hrun
    exact ⟨.refl hs, .nil, by simp⟩
  | cons S rest ih =>
    rw [List.zipIdx_cons, List.mapM_cons] at hrun
    obtain ⟨name, s₁, hfirst, hmore⟩ := Work.bind_eq_ok.1 hrun
    obtain ⟨others, s₂, hothers, hlast⟩ := Work.bind_eq_ok.1 hmore
    obtain ⟨rfl, rfl⟩ := Work.pure_eq_ok.1 hlast
    obtain ⟨hne, hdigits⟩ := hhint first
    obtain ⟨hreach, hfree⟩ := h S (by simp)
    have hcompiled := hvisit busy _ _ _ _ _ hfirst hs hreach hdigits hfree
    obtain ⟨hproceeds, hdenotes, hcovers⟩ := ih (first + 1) hcompiled.session
      (fun S' hS' => h S' (List.mem_cons_of_mem _ hS')) hothers
    refine ⟨(hcompiled.proceeds hne).trans hproceeds,
      .cons (hcompiled.denotes.extend hproceeds.extends_) hdenotes, fun S' hS' => ?_⟩
    rcases List.mem_cons.1 hS' with rfl | hS'
    · exact hcompiled.covers.extend hproceeds.extends_
    · exact hcovers S' hS'

end Loops

end Schema

end SchemaGrammar
