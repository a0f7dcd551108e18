import SchemaGrammar.Proofs.Rules.Legible
import SchemaGrammar.Proofs.Schema.Linking

set_option autoImplicit false

/-! # Legible sessions

A session is legible if its table is and all names that references have can be read
(`Session.Legible`). Where choices are `firm`, that is, none of them is empty, no blanks come of the
rules that stand for schemas either. A name that a reference has claimed is taken to be solid from
then on. This is made good when the reference is settled: then it has a rule of which no blanks come
(`Legible.settled`), and this is the rule of the claimed name unless that name was stolen. -/

namespace SchemaGrammar

open Grammar (IsReadable)
open RuleTable (HasPlainDigits IsLegibleBody IsSolidBody Requestable escapeName)

namespace Session

/-- A reference has claimed the name. -/
def HasClaimed (s : Session) (name : String) : Prop :=
  ∃ ref, Event.claimed ref name ∈ s.history

/-- No blanks come of a rule, if none come of those whose names have been claimed. -/
def IsSolid (s : Session) (name : String) : Prop :=
  s.table.IsSolid s.HasClaimed name

/-- A name that bodies may refer to. -/
structure IsUsable (firm : Prop) (s : Session) (name : String) : Prop where
  readable : IsReadable name
  solid : firm → s.IsSolid name

/-- The name has a rule, and no blanks come of it where choices are firm. -/
structure IsRule (firm : Prop) (s : Session) (name : String) : Prop where
  readable : IsReadable name
  stored : ∃ body, s.table.find? name = some body ∧ (firm → IsSolidBody s.IsSolid body)

/-- A session whose names and bodies can be read. -/
structure Legible (document : Json) (firm : Prop) (s : Session) : Prop where
  orderly : s.Orderly False
  records : s.resolver.Records document
  bodies : s.table.Legible
  names : ∀ ref name, s.ruleNames.lookup ref = some name → s.IsUsable firm name
  settled : ∀ ref name, Event.settled ref name ∈ s.history → s.IsRule firm name
  root : firm → ∀ body, s.table.find? "root" = some body → IsSolidBody s.IsSolid body

/-- Where work on schemas leads from a legible session. -/
structure Builds (document : Json) (firm : Prop) (s s' : Session) : Prop where
  advances : Advances False False s s'
  legible : s'.Legible document firm
  /-- All names that were claimed on the way have been settled. -/
  settles : ∀ ref name, Event.claimed ref name ∈ s'.history →
    Event.claimed ref name ∈ s.history ∨ ∃ rule, Event.settled ref rule ∈ s'.history

section Relations

variable {document : Json} {firm : Prop} {s s' s'' : Session} {name body : String}

theorem IsSolid.mono (h : s.IsSolid name) (hextends : s.table.Extends s'.table)
    (hhistory : s.history <:+ s'.history) : s'.IsSolid name :=
  RuleTable.IsSolid.mono h hextends fun _ ⟨ref, hclaimed⟩ => ⟨ref, hhistory.subset hclaimed⟩

theorem isSolidBody_mono (h : IsSolidBody s.IsSolid body) (hextends : s.table.Extends s'.table)
    (hhistory : s.history <:+ s'.history) : IsSolidBody s'.IsSolid body :=
  h.mono fun _ hname => hname.mono hextends hhistory

theorem IsUsable.mono (h : s.IsUsable firm name) (hextends : s.table.Extends s'.table)
    (hhistory : s.history <:+ s'.history) : s'.IsUsable firm name :=
  ⟨h.readable, fun hfirm => (h.solid hfirm).mono hextends hhistory⟩

theorem IsRule.mono (h : s.IsRule firm name) (hextends : s.table.Extends s'.table)
    (hhistory : s.history <:+ s'.history) : s'.IsRule firm name := by
  obtain ⟨body, hfind, hbody⟩ := h.stored
  exact ⟨h.readable, body, hextends.find? hfind, fun hfirm =>
    isSolidBody_mono (hbody hfirm) hextends hhistory⟩

theorem IsRule.isUsable (h : s.IsRule firm name) : s.IsUsable firm name := by
  refine ⟨h.readable, fun hfirm => ?_⟩
  obtain ⟨body, hfind, hbody⟩ := h.stored
  exact RuleTable.isSolid_of_find? hfind (hbody hfirm)

theorem Builds.refl (h : s.Legible document firm) : Builds document firm s s :=
  ⟨.refl h.orderly, h, fun _ _ => .inl⟩

theorem Builds.trans (h : Builds document firm s s') (h' : Builds document firm s' s'') :
    Builds document firm s s'' := by
  refine ⟨h.advances.trans h'.advances, h'.legible, fun ref name hclaimed => ?_⟩
  rcases h'.settles ref name hclaimed with hold | hnew
  · refine (h.settles ref name hold).imp_right ?_
    intro ⟨rule, hrule⟩
    exact ⟨rule, h'.advances.history.subset hrule⟩
  · exact .inr hnew

theorem Builds.isRule (h : Builds document firm s s') (hname : s.IsRule firm name) :
    s'.IsRule firm name :=
  hname.mono h.advances.extends_ h.advances.history

/-- What is added to the table alone. The root is only taken for something solid. -/
theorem Legible.withTable (h : s.Legible document firm) {t : RuleTable}
    (hadvances : RuleTable.Advances False False s.table t) (hbodies : t.Legible)
    (hroot : firm → ∀ body, t.find? "root" = some body → s.table.find? "root" = some body ∨
      IsSolidBody (t.IsSolid s.HasClaimed) body) :
    Builds document firm s { s with table := t } := by
  have hmore := h.orderly.withTable hadvances
  have hextends := hmore.extends_
  have hhistory := hmore.history
  refine ⟨hmore, ⟨hmore.orderly, h.records, hbodies, fun ref name hname => ?_,
    fun ref name hname => ?_, fun hfirm body hbody => ?_⟩, fun _ _ => .inl⟩
  · exact (h.names ref name hname).mono hextends hhistory
  · exact (h.settled ref name hname).mono hextends hhistory
  · rcases hroot hfirm body hbody with hold | hnew
    · exact isSolidBody_mono (h.root hfirm body hold) hextends hhistory
    · exact hnew

end Relations

/-! ## Work on legible sessions -/

/-- Work that, where it ends well, keeps a session legible. -/
def Makes {α : Type} (document : Json) (firm : Prop) (Q : α → Session → Prop) (x : CompileM α)
    (s : Session) : Prop :=
  ∀ a s', x s = .ok a s' → Builds document firm s s' ∧ Q a s'

/-- Work that gives a rule. -/
abbrev MakesRule (document : Json) (firm : Prop) (x : CompileM String) (s : Session) : Prop :=
  Makes document firm (fun name s' => s'.IsRule firm name) x s

section Makes

variable {α β : Type} {document : Json} {firm : Prop} {Q : α → Session → Prop} {s : Session}
variable {Q' : β → Session → Prop} {name body own : String}

theorem Makes.bind {x : CompileM α} {f : α → CompileM β} (hx : Makes document firm Q x s)
    (hf : ∀ a s', Builds document firm s s' → Q a s' → Makes document firm Q' (f a) s') :
    Makes document firm Q' (x >>= f) s := by
  intro b s₂ hrun
  obtain ⟨a, s₁, hfirst, hrest⟩ := Work.bind_eq_ok.1 hrun
  obtain ⟨hbuilds, ha⟩ := hx a s₁ hfirst
  obtain ⟨hbuilds', hb⟩ := hf a s₁ hbuilds ha b s₂ hrest
  exact ⟨hbuilds.trans hbuilds', hb⟩

theorem Makes.mono {x : CompileM α} {Q' : α → Session → Prop} (h : Makes document firm Q x s)
    (hQ : ∀ a s', Builds document firm s s' → Q a s' → Q' a s') : Makes document firm Q' x s := by
  intro a s' hrun
  obtain ⟨hbuilds, ha⟩ := h a s' hrun
  exact ⟨hbuilds, hQ a s' hbuilds ha⟩

theorem makes_pure {a : α} (h : s.Legible document firm) (hQ : Q a s) :
    Makes document firm Q (pure a) s := by
  intro b s' hrun
  obtain ⟨rfl, rfl⟩ := Work.pure_eq_ok.1 hrun
  exact ⟨.refl h, hQ⟩

theorem makes_throw (e : Failure) : Makes document firm Q (throw e) s :=
  fun _ _ hrun => absurd hrun Work.throw_ne_ok

/-- Reading something from a schema. -/
theorem makes_orFail_bind {x : Except Failure α} {f : α → CompileM β}
    (hf : ∀ a, x = .ok a → Makes document firm Q' (f a) s) :
    Makes document firm Q' (orFail x >>= f) s := by
  intro b s' hrun
  obtain ⟨a, s₁, hfirst, hrest⟩ := Work.bind_eq_ok.1 hrun
  obtain ⟨ha, rfl⟩ := Work.ofExcept_eq_ok.1 hfirst
  exact hf a ha b s' hrest

/-- Work on one item after the other, each of which gives a rule. -/
theorem makes_mapM {f : α → CompileM String} {items : List α} (h : s.Legible document firm)
    (hstep : ∀ a ∈ items, ∀ s₁, s₁.Legible document firm →
      MakesRule document firm (f a) s₁) :
    Makes document firm (fun names s' => names.length = items.length ∧
      ∀ name ∈ names, s'.IsRule firm name) (items.mapM f) s := by
  induction items generalizing s with
  | nil => exact makes_pure h (by simp)
  | cons a rest ih =>
    rw [List.mapM_cons]
    refine (hstep a (by simp) s h).bind fun name s₁ hfirst hname => ?_
    refine (ih hfirst.legible fun b hb => hstep b (List.mem_cons_of_mem _ hb)).bind
      fun names s₂ hmore hnames => ?_
    refine makes_pure hmore.legible ⟨by simp [hnames.1], fun other hother => ?_⟩
    rcases List.mem_cons.1 hother with rfl | hother
    · exact hmore.isRule hname
    · exact hnames.2 other hother

/-- A rule under a name that can be asked for. -/
theorem makes_addRule (h : s.Legible document firm) (hname : Requestable True name)
    (hbody : IsLegibleBody body)
    (hroot : firm → escapeName name ≠ "root" ∨ IsSolidBody s.IsSolid body) :
    Makes document firm (fun slot s' => IsReadable slot ∧ s'.table.find? slot = some body)
      (addRule name body) s := by
  intro slot s' hrun
  obtain ⟨t, hadd, rfl⟩ := addRule_eq_ok.1 hrun
  have hadds := RuleTable.adds_add h.orderly.table.coherent.wellFormed name body
  rw [hadd] at hadds
  obtain ⟨hadvances, hfind, -⟩ : RuleTable.Advances False False s.table t ∧ _ :=
    h.orderly.table.add ⟨hname.nonempty, hname.free, False.elim⟩ False.elim False.elim hadd
  have hdigits := hname.digits trivial
  refine ⟨h.withTable hadvances (h.bodies.adds hadds hname.nonempty hdigits hbody) ?_,
    hadds.isSlot.isReadable hname.nonempty hdigits, hfind⟩
  intro hfirm content hcontent
  by_cases hslot : "root" = slot
  · have hsolid := (hroot hfirm).resolve_left fun hne => hadds.isSlot.ne_root hne hslot.symm
    rw [hslot] at hcontent
    obtain rfl := Option.some.inj (hfind.symm.trans hcontent)
    exact .inr (hsolid.mono fun other hother =>
      RuleTable.IsSolid.mono hother hadvances.extends_ fun _ => id)
  · rw [hadds.find?_of_ne hslot] at hcontent
    exact .inl hcontent

/-- The rule of a schema at the end of its builder. -/
theorem makes_finish {hint : String} (h : s.Legible document firm) (hhint : HasPlainDigits hint)
    (hbody : IsLegibleBody body) (hsolid : firm → IsSolidBody s.IsSolid body) :
    MakesRule document firm (addRule (Schema.ruleNameFor hint) body) s := by
  refine (makes_addRule h (Schema.requestable_ruleNameFor fun _ => hhint) hbody
    fun hfirm => .inr (hsolid hfirm)).mono ?_
  intro slot s' hbuilds ⟨hreadable, hfind⟩
  exact ⟨hreadable, body, hfind, fun hfirm =>
    isSolidBody_mono (hsolid hfirm) hbuilds.advances.extends_ hbuilds.advances.history⟩

/-- A built-in rule, under its own name or one that can be asked for. -/
theorem makes_addNamed (h : s.Legible document firm) (hname : name = own ∨ Requestable True name)
    (hroot : firm → escapeName name ≠ "root" ∨ own ∈ Builtin.solidNames) :
    Makes document firm (fun slot s' => IsReadable slot ∧
      (own ∈ Builtin.solidNames → s'.IsRule firm slot)) (addNamed name own) s := by
  intro slot s' hrun
  obtain ⟨t, hwork, rfl⟩ := onTable_eq_ok.1 hrun
  obtain ⟨rule, hrule, hadd⟩ := RuleTable.addNamed_eq_ok hwork
  have hne : name ≠ "" := by
    rcases hname with rfl | hname
    · exact (RuleTable.escapeName_builtin hrule).1
    · exact hname.nonempty
  have hdigits : HasPlainDigits name := by
    rcases hname with rfl | hname
    · have hall : ∀ x ∈ Builtin.catalog, HasPlainDigits x.1 := by decide
      exact hall _ (Assoc.mem_of_lookup hrule)
    · exact hname.digits trivial
  have hadds := RuleTable.addsBuiltin_addBuiltinFrom h.orderly.table.coherent hrule hne
    (hname.imp_right Requestable.free) hadd
  obtain ⟨slot', t', hrun', hadvances, -⟩ : ∃ slot' t', RuleTable.addNamed name own s.table =
      .ok slot' t' ∧ RuleTable.Advances False False s.table t' ∧ _ :=
    h.orderly.table.addNamed hrule
      (hname.imp_right fun hname => ⟨hname.nonempty, hname.free, False.elim⟩) False.elim
  obtain ⟨rfl, rfl⟩ := EStateM.Result.ok.inj (hwork.symm.trans hrun')
  have hreadable := hadds.isSlot.isReadable hne hdigits
  have hsolid (hown : own ∈ Builtin.solidNames) :
      IsSolidBody (Session.IsSolid { s with table := t }) rule.body :=
    hadds.isSolidBody hrule hown
  refine ⟨h.withTable hadvances (h.bodies.addsBuiltin hadds hrule hne hdigits) ?_, hreadable,
    fun hown => ⟨hreadable, rule.body, hadds.find?, fun _ => hsolid hown⟩⟩
  intro hfirm body hbody
  rcases hadds.only "root" (RuleTable.has_of_find? hbody) with hold | rfl | hmem
  · obtain ⟨content, hcontent⟩ := Option.isSome_iff_exists.1 hold
    obtain rfl := Option.some.inj ((hadds.extends_.find? hcontent).symm.trans hbody)
    exact .inl hcontent
  · have hown := (hroot hfirm).resolve_left fun hne => hadds.isSlot.ne_root hne rfl
    obtain rfl := Option.some.inj (hadds.find?.symm.trans hbody)
    exact .inr (hsolid hown)
  · exact absurd hmem Builtin.root_notMem_names

end Makes

/-! ## References -/

section References

variable {document target : Json} {firm : Prop} {s s₁ : Session} {ref found : String}

/-- A claimed name can be read and counts as solid. -/
theorem Legible.claim (h : s.Legible document firm) (hnew : s.ruleNames.lookup ref = none) :
    (s.claim ref).Legible document firm := by
  obtain ⟨-, -, hne, hdigits⟩ := Schema.referenceName_spec ref
  have hslot := RuleTable.isSlot_reserve s.table (Schema.referenceName ref)
  have hmoves := Schema.moves_claim h.orderly hnew
  have hextends := hmoves.extends_
  have hhistory := hmoves.history
  have hclaimed : (s.claim ref).HasClaimed (s.claimedName ref) := ⟨ref, List.mem_cons_self⟩
  refine ⟨hmoves.orderly, h.records, h.bodies, fun r name hname => ?_, fun r name hname => ?_,
    fun hfirm body hbody => ?_⟩
  · rw [Session.claim, Assoc.lookup_set] at hname
    split_ifs at hname
    · obtain rfl := Option.some.inj hname
      exact ⟨hslot.isReadable hne hdigits, fun _ => RuleTable.isSolid_of_pending hclaimed⟩
    · exact (h.names r name hname).mono hextends hhistory
  · have hold : Event.settled r name ∈ s.history := (List.mem_cons.1 hname).resolve_left (by simp)
    exact (h.settled r name hold).mono hextends hhistory
  · exact isSolidBody_mono (h.root hfirm body hbody) hextends hhistory

/-- A reference is settled with the rule of its target. -/
theorem Builds.settle (h : s.Legible document firm) (hnew : s.ruleNames.lookup ref = none)
    (hbuilds : Builds document firm (s.claim ref) s₁) (hfound : s₁.IsRule firm found)
    (hadvances : Advances False True (s.claim ref) s₁)
    (hvisited : Schema.Visited document target (s.claimedName ref) (s.claim ref) found s₁) :
    Builds document firm s (s₁.settle ref (s.claimedName ref) found) ∧
      (s₁.settle ref (s.claimedName ref) found).IsRule firm found := by
  have hmore := Schema.advances_settle h.orderly hnew hadvances hvisited
  have hclaimed : s₁.ruleNames.lookup ref = some (s.claimedName ref) := by
    refine hadvances.remembers ref _ ?_
    rw [Session.claim, Assoc.lookup_set, if_pos rfl]
  generalize hsettled : s₁.settle ref (s.claimedName ref) found = s₂ at hmore ⊢
  have hlog : s₂.history = .settled ref found :: s₁.history := by
    rw [← hsettled, Session.settle]
    split_ifs <;> rfl
  have hrules : s₂.table.rules = s₁.table.rules := by rw [← hsettled, rules_settle]
  have hextends : s₁.table.Extends s₂.table := by rw [RuleTable.Extends, hrules]
  have hhistory : s₁.history <:+ s₂.history := by
    rw [hlog]
    exact List.suffix_cons _ _
  have hrule := hfound.mono hextends hhistory
  have hfind (name : String) : s₂.table.find? name = s₁.table.find? name := by
    rw [RuleTable.find?, hrules, RuleTable.find?]
  refine ⟨⟨hmore.weaken fun _ => trivial, ⟨hmore.orderly, ?_, fun name body hbody => ?_,
    fun r name hname => ?_, fun r name hname => ?_, fun hfirm body hbody => ?_⟩,
    fun r name hname => ?_⟩, hrule⟩
  · rw [hmore.resolver]
    exact h.records
  · rw [hfind] at hbody
    exact hbuilds.legible.bodies name body hbody
  · rw [← hsettled, lookup_settle hclaimed] at hname
    split_ifs at hname
    · obtain rfl := Option.some.inj hname
      exact hrule.isUsable
    · exact (hbuilds.legible.names r name hname).mono hextends hhistory
  · rw [hlog] at hname
    rcases List.mem_cons.1 hname with heq | hold
    · obtain ⟨rfl, rfl⟩ := Event.settled.inj heq
      exact hrule
    · exact (hbuilds.legible.settled r name hold).mono hextends hhistory
  · rw [hfind] at hbody
    exact isSolidBody_mono (hbuilds.legible.root hfirm body hbody) hextends hhistory
  · rw [hlog] at hname ⊢
    have hold : Event.claimed r name ∈ s₁.history := (List.mem_cons.1 hname).resolve_left (by simp)
    rcases hbuilds.settles r name hold with hold | ⟨rule, hrule⟩
    · rcases List.mem_cons.1 hold with heq | hold
      · obtain ⟨rfl, rfl⟩ := Event.claimed.inj heq
        exact .inr ⟨found, List.mem_cons_self⟩
      · exact .inl hold
    · exact .inr ⟨rule, List.mem_cons_of_mem _ hrule⟩

/-- A rule that stands for a reference is noted. -/
theorem Builds.link {name rule : String} (h : Builds document firm s s₁)
    (hadvances : Advances False False s (s₁.link ref name rule)) :
    Builds document firm s (s₁.link ref name rule) := by
  have hextends : s₁.table.Extends (s₁.link ref name rule).table := .refl _
  have hhistory : s₁.history <:+ (s₁.link ref name rule).history := List.suffix_cons _ _
  refine ⟨hadvances, ⟨hadvances.orderly, h.legible.records, h.legible.bodies, fun r other hname => ?_,
    fun r other hname => ?_, fun hfirm body hbody => ?_⟩, fun r other hname => ?_⟩
  · exact (h.legible.names r other hname).mono hextends hhistory
  · have hold : Event.settled r other ∈ s₁.history := (List.mem_cons.1 hname).resolve_left (by simp)
    exact (h.legible.settled r other hold).mono hextends hhistory
  · exact isSolidBody_mono (h.legible.root hfirm body hbody) hextends hhistory
  · have hold : Event.claimed r other ∈ s₁.history := (List.mem_cons.1 hname).resolve_left (by simp)
    refine (h.settles r other hold).imp_right ?_
    intro ⟨found, hfound⟩
    exact ⟨found, List.mem_cons_of_mem _ hfound⟩

end References

end Session

end SchemaGrammar
