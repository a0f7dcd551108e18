import SchemaGrammar.Proofs.Schema.Properties
import SchemaGrammar.Proofs.Schema.References

set_option autoImplicit false

/-! # References and whole visits keep sessions orderly

A reference that is met for the first time claims a name and gives it back if its target has a rule
of another name. What was said about the claimed name in between stays true: nothing refers to it,
or it has a rule by now, though not the target's own (`Session.IsStolen`). With references all
shapes are covered, so compiling schemas keeps sessions orderly to any depth (`runs_visit`). -/

namespace SchemaGrammar

open Grammar (IsText isText_name)
open RuleTable (escapeName IsSlot)
open Session (Advances Moves Runs runs_throw runs_get_bind)

/-! ## Claiming and giving back -/

namespace RuleTable

variable {tidy : Prop} {t : RuleTable} {name : String}

theorem escapeName_of_isStorable (h : IsStorable name) : escapeName name = name := by
  rw [escapeName, dashRuns_kept h.2, String.ofList_toList]

/-- A name that can be claimed. -/
structure Claimable (name : String) : Prop where
  nonempty : name ≠ ""
  free : Builtin.find? (escapeName name) = none
  root : escapeName name ≠ "root"

theorem Orderly.reserve (h : t.Orderly tidy) (hname : Claimable name) :
    (t.reserve name).2.Orderly tidy := by
  have hslot := isSlot_reserve t name
  have hstorable := hslot.isStorable hname.nonempty
  refine ⟨h.coherent.reserve hname.free, fun other hother => ?_, fun htidy other body hbody => ?_⟩
  · rcases List.mem_cons.1 hother with rfl | hother
    · exact ⟨escapeName_of_isStorable hstorable, hstorable.1, hslot.ne_root hname.root⟩
    · exact h.claims other hother
  · refine (h.bodies htidy other body hbody).mono fun n hn => ?_
    exact hn.imp_right (List.mem_cons_of_mem _)

/-- A claimed name was not promised before. -/
theorem not_promises_reserve (t : RuleTable) (name : String) : ¬ t.Promises (t.reserve name).1 := by
  have hunused := reserve_unused t name
  simp only [isUnused, Bool.and_eq_true, Bool.not_eq_true'] at hunused
  rintro (hhas | hmem)
  · rw [hunused.2] at hhas
    exact absurd hhas (by simp)
  · rw [List.contains_iff_mem.2 hmem] at hunused
    exact absurd hunused.1 (by simp)

theorem Promises.release {other : String} (h : t.Promises other) (hne : other ≠ name) :
    (t.release name).Promises other :=
  h.imp_right fun hmem => List.mem_filter.2 ⟨hmem, by simpa using hne⟩

/-- A claimed name that no body refers to can be given back. -/
theorem Orderly.release (h : t.Orderly tidy)
    (hbodies : tidy → ∀ other body, t.find? other = some body → IsText (t.release name).Promises body) :
    (t.release name).Orderly tidy :=
  ⟨h.coherent.release name, fun other hother => h.claims other (List.mem_of_mem_filter hother), hbodies⟩

end RuleTable

namespace Schema

theorem claimable_referenceName (ref : String) : RuleTable.Claimable (referenceName ref) := by
  obtain ⟨hescape, hfree, hne, -⟩ := referenceName_spec ref
  refine ⟨hne, by rwa [hescape], ?_⟩
  rw [hescape]
  intro heq
  have hprefix : "ref".toList <+: "root".toList := by
    rw [← heq, referenceName, String.toList_append]
    exact List.prefix_append _ _
  exact absurd hprefix (by decide)

section References

variable {document : Json} {tidy : Prop} {E : Failure → Prop} {visit : Visit} {s s₁ : Session}
variable {fields : Json.Fields} {hint ref found : String}

theorem mem_reserved_claim {name : String} :
    name ∈ (s.claim ref).table.reserved ↔ name = s.claimedName ref ∨ name ∈ s.table.reserved :=
  List.mem_cons

/-- A reference without a rule claims one. -/
theorem moves_claim (hs : s.Orderly tidy) (hnew : s.ruleNames.lookup ref = none) :
    Moves tidy True s (s.claim ref) := by
  have hsuffix : s.history <:+ (s.claim ref).history := List.suffix_cons _ _
  have hextends : s.table.Extends (s.claim ref).table := .refl _
  have hpromises : ∀ n, s.table.Promises n → (s.claim ref).table.Promises n := fun n hn =>
    hn.imp_right (List.mem_cons_of_mem _)
  refine ⟨⟨hs.table.reserve (claimable_referenceName ref), fun htidy r name hname => ?_,
    fun r name rule hlink => ?_⟩, hextends, hpromises, rfl, fun r name hr => ?_, hsuffix,
    fun _ => rfl⟩
  · rw [Session.claim, Assoc.lookup_set] at hname
    split_ifs at hname
    · obtain rfl := Option.some.inj hname
      exact .inr List.mem_cons_self
    · exact hpromises name (hs.names htidy r name hname)
  · have hold : Event.linked r name rule ∈ s.history :=
      (List.mem_cons.1 hlink).resolve_left (by simp)
    obtain ⟨hfind, now, hnow, hrule⟩ := hs.links r name rule hold
    have hr : r ≠ ref := by
      rintro rfl
      rw [hnew] at hnow
      exact absurd hnow (by simp)
    refine ⟨hfind, now, ?_, hrule.imp_right fun h => h.mono hextends hsuffix⟩
    rw [Session.claim, Assoc.lookup_set, if_neg hr]
    exact hnow
  · have hne : r ≠ ref := by
      rintro rfl
      rw [hnew] at hr
      exact absurd hr (by simp)
    rw [Session.claim, Assoc.lookup_set, if_neg hne]
    exact hr

/-- A reference whose target has the claimed rule is settled. -/
theorem advances_settle_same (hs : s.Orderly tidy) (hnew : s.ruleNames.lookup ref = none)
    (hadvances : Advances tidy True (s.claim ref) s₁)
    (hhas : s₁.table.has (s.claimedName ref) = true) :
    Advances tidy True s { s₁ with history := .settled ref (s.claimedName ref) :: s₁.history } := by
  have hmoves := (moves_claim hs hnew).trans hadvances.toMoves
  have horderly := hmoves.orderly
  refine ⟨⟨⟨horderly.table, horderly.names, fun r name rule hlink => ?_⟩, hmoves.extends_,
    hmoves.promises, hmoves.resolver, hmoves.remembers, hmoves.history.trans (List.suffix_cons _ _),
    hmoves.root⟩, fun name hname => ?_⟩
  · have hold : Event.linked r name rule ∈ s₁.history :=
      (List.mem_cons.1 hlink).resolve_left (by simp)
    obtain ⟨hfind, now, hnow, hrule⟩ := horderly.links r name rule hold
    exact ⟨hfind, now, hnow, hrule.imp_right fun h => h.mono (.refl _) (List.suffix_cons _ _)⟩
  · rcases mem_reserved_claim.1 (hadvances.reserved name hname) with rfl | hold
    · have hnone := horderly.table.coherent.wellFormed.waiting _ hname
      rw [RuleTable.has, hnone] at hhas
      exact absurd hhas (by simp)
    · exact hold

/-- A reference whose target has another rule gives the claimed name back. Either nothing has been
    said about that name, or it has been stolen. -/
theorem advances_settle_other {target : Json} (hs : s.Orderly tidy)
    (hnew : s.ruleNames.lookup ref = none) (hadvances : Advances tidy True (s.claim ref) s₁)
    (hvisited : Visited document target (s.claimedName ref) (s.claim ref) found s₁)
    (hne : found ≠ s.claimedName ref) :
    Advances tidy True s ⟨s₁.table.release (s.claimedName ref), s₁.resolver,
      Assoc.set s₁.ruleNames ref found, .settled ref found :: s₁.history⟩ := by
  have hmoves := (moves_claim hs hnew).trans hadvances.toMoves
  have horderly := hmoves.orderly
  have hkeep : ∀ n, s.table.Promises n →
      (s₁.table.release (s.claimedName ref)).Promises n := by
    intro n hn
    refine (hmoves.promises n hn).release ?_
    rintro rfl
    exact RuleTable.not_promises_reserve _ _ hn
  -- if the name does not wait any more, giving it back changes nothing
  have hgone (hout : s.claimedName ref ∉ s₁.table.reserved) (n : String)
      (hn : s₁.table.Promises n) : (s₁.table.release (s.claimedName ref)).Promises n := by
    rcases hn with hn | hn
    · exact .inl hn
    · exact RuleTable.Promises.release (.inr hn) fun heq => hout (heq ▸ hn)
  refine ⟨⟨⟨horderly.table.release fun htidy n body hbody => ?_, fun htidy r name hname => ?_,
    fun r name rule hlink => ?_⟩, hmoves.extends_, hkeep, hmoves.resolver, fun r name hr => ?_,
    hmoves.history.trans (List.suffix_cons _ _), hmoves.root⟩, fun name hname => ?_⟩
  · by_cases hout : s.claimedName ref ∈ s₁.table.reserved
    · rcases (hvisited.left hout).2.2 n body hbody with hold | htext
      · exact (hs.table.bodies htidy n body hold).mono hkeep
      · exact htext.mono fun _ => .inl
    · exact (horderly.table.bodies htidy n body hbody).mono (hgone hout)
  · rw [Assoc.lookup_set] at hname
    split_ifs at hname with hr
    · exact .inl (Option.some.inj hname ▸ hvisited.has)
    · by_cases hout : s.claimedName ref ∈ s₁.table.reserved
      · rw [(hvisited.left hout).1, Session.claim, Assoc.lookup_set, if_neg hr] at hname
        exact hkeep name (hs.names htidy r name hname)
      · exact hgone hout name (horderly.names htidy r name hname)
  · have hold : Event.linked r name rule ∈ s₁.history :=
      (List.mem_cons.1 hlink).resolve_left (by simp)
    obtain ⟨hfind, now, hnow, hrule⟩ := horderly.links r name rule hold
    refine ⟨hfind, ?_⟩
    rw [Assoc.lookup_set]
    split_ifs with hr
    · refine ⟨found, rfl, .inr ?_⟩
      subst hr
      by_cases hout : s.claimedName r ∈ s₁.table.reserved
      · rw [(hvisited.left hout).2.1] at hold
        have hbefore : Event.linked r name rule ∈ s.history :=
          (List.mem_cons.1 hold).resolve_left (by simp)
        obtain ⟨-, now, hnow, -⟩ := hs.links r name rule hbefore
        rw [hnew] at hnow
        exact absurd hnow (by simp)
      · have hclaimed : (s.claim r).table.Promises (s.claimedName r) := .inr List.mem_cons_self
        refine ⟨s.claimedName r, found, ?_, List.mem_cons_self, hne, ?_⟩
        · exact List.mem_cons_of_mem _ (hadvances.history.subset List.mem_cons_self)
        · exact (hadvances.promises _ hclaimed).resolve_right hout
    · exact ⟨now, hnow, hrule.imp_right fun h => h.mono (.refl _) (List.suffix_cons _ _)⟩
  · have hold : r ≠ ref := by
      rintro rfl
      rw [hnew] at hr
      exact absurd hr (by simp)
    rw [Assoc.lookup_set, if_neg hold]
    exact hmoves.remembers r name hr
  · obtain ⟨hin, hother⟩ := List.mem_filter.1 hname
    exact (mem_reserved_claim.1 (hadvances.reserved name hin)).resolve_left (by simpa using hother)

theorem advances_settle {target : Json} (hs : s.Orderly tidy) (hnew : s.ruleNames.lookup ref = none)
    (hadvances : Advances tidy True (s.claim ref) s₁)
    (hvisited : Visited document target (s.claimedName ref) (s.claim ref) found s₁) :
    Advances tidy True s (s₁.settle ref (s.claimedName ref) found) := by
  unfold Session.settle
  split_ifs with hsame
  · exact hsame ▸ advances_settle_same hs hnew hadvances (hsame ▸ hvisited.has)
  · exact advances_settle_other hs hnew hadvances hvisited hsame

/-- The rule of a reference that is met for the first time. -/
theorem referenceRule_run (visit : Visit) (ref : String) (target : Json) (s : Session) :
    referenceRule visit ref target s = (do
      let found ← visit target (s.claimedName ref)
      if found != s.claimedName ref then
        Session.release (s.claimedName ref)
        Session.nameReference ref found
      Session.note (.settled ref found)
      return found) (s.claim ref) :=
  rfl

theorem runs_referenceRule {S target : Json} (hvisit : Serves document tidy E visit S s)
    (hs : s.Orderly tidy) (hnew : s.ruleNames.lookup ref = none)
    (henters : Enters document S target s (s.claim ref)) :
    Runs tidy True E
      (fun found s' => s'.table.has found = true ∧ s'.ruleNames.lookup ref = some found)
      (referenceRule visit ref target) s := by
  have hclaim := moves_claim hs hnew
  obtain ⟨hok, herror⟩ := Work.leads_iff.1
    ((hvisit target (s.claimedName ref) (s.claim ref) henters hclaim.orderly).weaken
      fun (_ : True) => (claimedName_spec s ref).1)
  refine Work.leads_iff.2 ⟨fun found s' hrun => ?_, fun e s' hrun => ?_⟩
  · obtain ⟨s₁, hfound, rfl⟩ := referenceRule_eq_ok hrun
    obtain ⟨hadvances, hvisited⟩ := hok found s₁ hfound
    have hclaimed : s₁.ruleNames.lookup ref = some (s.claimedName ref) := by
      refine hadvances.remembers ref _ ?_
      rw [Session.claim, Assoc.lookup_set, if_pos rfl]
    refine ⟨advances_settle hs hnew hadvances hvisited, ?_, ?_⟩
    · rw [RuleTable.has, RuleTable.find?, Session.rules_settle]
      exact hvisited.has
    · rw [Session.lookup_settle hclaimed, if_pos rfl]
  · rw [referenceRule_run] at hrun
    rcases Work.bind_eq_error.1 hrun with hfailed | ⟨found, s₁, hfound, hlast⟩
    · obtain ⟨hmoves, he⟩ := herror e s' hfailed
      exact ⟨hclaim.trans hmoves, he⟩
    · -- giving a name back and taking notes do not fail
      dsimp only at hlast
      split_ifs at hlast <;> cases hlast

/-- A rule that stands for a reference is noted. -/
theorem advances_link {quiet : Prop} {name rule : String} (h : Advances tidy quiet s s₁)
    (hfind : s₁.table.find? name = some rule) (hrule : s₁.ruleNames.lookup ref = some rule) :
    Advances tidy quiet s (s₁.link ref name rule) := by
  have hsuffix : s₁.history <:+ (s₁.link ref name rule).history := List.suffix_cons _ _
  refine ⟨⟨⟨h.orderly.table, h.orderly.names, fun r other body hlink => ?_⟩, h.extends_, h.promises,
    h.resolver, h.remembers, h.history.trans hsuffix, h.root⟩, h.reserved⟩
  rcases List.mem_cons.1 hlink with heq | hold
  · obtain ⟨rfl, rfl, rfl⟩ := Event.linked.inj heq
    exact ⟨hfind, _, hrule, .inl rfl⟩
  · obtain ⟨hbody, now, hnow, hsame⟩ := h.orderly.links r other body hold
    exact ⟨hbody, now, hnow, hsame.imp_right fun hstolen => hstolen.mono (.refl _) hsuffix⟩

/-- The rule of a schema that is a reference with a rule. -/
theorem runs_link (hadvances : Advances tidy True s s₁) {rule : String}
    (hrule : s₁.ruleNames.lookup ref = some rule) :
    Runs tidy (hint ≠ "") E (Visited document (.obj fields) hint s) (do
      let name ← Session.addRule (ruleNameFor hint) rule
      Session.note (.linked ref name rule)
      return name) s₁ := by
  have horderly := hadvances.orderly
  have hbody : tidy → IsText s₁.table.Promises rule := fun htidy =>
    isText_name (horderly.names htidy ref rule hrule)
  generalize hadd : s₁.table.add (ruleNameFor hint) rule = added
  obtain ⟨name, t⟩ := added
  have hfiled := horderly.table.filed (ruleNameFor hint) rule
  rw [hadd] at hfiled
  obtain ⟨ht, hfind, -⟩ := horderly.table.add (requestable_ruleNameFor False.elim) hbody
    escapeName_ruleNameFor hadd
  have hrun : (do
      let name ← Session.addRule (ruleNameFor hint) rule
      Session.note (.linked ref name rule)
      return name) s₁ = .ok name (Session.link { s₁ with table := t } ref name rule) := by
    refine Work.bind_eq_ok.2 ⟨name, { s₁ with table := t }, ?_, rfl⟩
    exact Session.addRule_eq_ok.2 ⟨t, hadd, rfl⟩
  refine Work.leads_of_ok hrun (advances_link (horderly.withTable ht) hfind hrule) ?_
  exact visited_of_filed hadvances (fun _ _ _ => trivial) hfiled ht.reserved

theorem runs_visitRef {options : Options}
    (hE : ∀ e, Fault options s.resolver (.obj fields) e → E e)
    (hvisit : Serves document tidy E visit (.obj fields) s) (hs : s.Orderly tidy)
    (hshape : shape fields = .ref) :
    Runs tidy (hint ≠ "") E (Visited document (.obj fields) hint s)
      (visitRef visit ⟨fields, hint, ruleNameFor hint⟩) s := by
  have hfault : ∀ e, s.resolver.lookUp (keyword fields "$ref") = .error e → E e := fun e he =>
    hE e (.reference hshape he)
  have hsite : Site.keyword ⟨fields, hint, ruleNameFor hint⟩ "$ref" = keyword fields "$ref" := rfl
  refine runs_orFail_bind hs (fun e he => hfault e (Resolver.lookUp_of_checkKey he)) fun _ hkey => ?_
  cases hkeyword : keyword fields "$ref" with
  | str r =>
    rw [hsite, hkeyword]
    refine runs_get_bind ?_
    cases hlookup : s.ruleNames.lookup r with
    | some rule => exact runs_link (.refl hs) hlookup
    | none =>
      dsimp only
      rw [hkeyword] at hfault
      refine (runs_target hs hfault).bind (fun _ => trivial) fun target s₁ _ htarget => ?_
      obtain ⟨rfl, hlooked⟩ := htarget
      obtain ⟨_, hr, hfind⟩ := Resolver.lookUp_eq_ok hlooked
      obtain rfl := Json.str.inj hr
      refine (runs_referenceRule hvisit hs hlookup ⟨fun hrecords => ?_, rfl, ?_, ?_⟩).bind
        (fun _ => trivial) fun rule s₂ hadvances hrule => ?_
      · rw [inside, hshape]
        dsimp only
        rw [referenceTarget, hkeyword]
        exact Option.mem_toList.2 (hrecords.find? hfind)
      · exact (moves_claim hs hlookup).remembers
      · rintro ref ⟨fields', heq, -, href⟩
        obtain rfl := Json.obj.inj heq
        obtain rfl := Json.str.inj (hkeyword.symm.trans href)
        refine ⟨hlookup, ?_⟩
        rw [Session.claim, Assoc.lookup_set, if_pos rfl]
        rfl
      · exact runs_link hadvances hrule.2
  | arr _ | obj _ => exact absurd hkey (by simp [hsite, hkeyword, checkKey])
  | _ =>
    rw [hsite, hkeyword]
    exact runs_throw hs (hfault _ (by rw [hkeyword]; rfl))

end References

/-! ## Whole visits -/

section Visits

variable {document S : Json} {tidy : Prop} {E : Failure → Prop} {options : Options} {s : Session}
variable {hint : String}

/-- **One step of compiling.** Given a way to compile what is inside a schema that keeps sessions
    orderly, compiling the schema does, too. -/
theorem runs_visitWith {visit : Visit} (hE : ∀ e, Fault options s.resolver S e → E e)
    (hvisit : Serves document tidy E visit S s) (hs : s.Orderly tidy)
    (hcounts : tidy → HasWholeCounts S) :
    Runs tidy (hint ≠ "") E (Visited document S hint s) (visitWith visit options S hint) s := by
  cases S with
  | obj fields =>
    unfold visitWith
    dsimp only
    cases hshape : shape fields with
    | ref => exact runs_visitRef hE hvisit hs hshape
    | union => exact runs_visitUnion hE hvisit hs hshape
    | typeUnion => exact runs_visitTypeUnion hE hvisit hs hshape
    | const => exact runs_visitConst hE hs hshape
    | enum => exact runs_visitEnum hE hs hshape
    | object => exact runs_visitObject hvisit hE hs hshape
    | allOf => exact runs_visitAllOf hs hE hvisit hshape
    | tuple => exact runs_visitTuple hvisit hs hshape
    | array => exact runs_visitArray hE hvisit hs hcounts hshape
    | pattern => exact runs_visitPattern hE hs hshape
    | uuid => exact runs_visitUuid hs hshape
    | formatString => exact runs_visitFormatString hs hshape
    | boundedString => exact runs_visitBoundedString hE hs hcounts hshape
    | intRange => exact runs_visitIntRange hE hs hshape
    | genericObject => exact runs_visitGenericObject hs
    | primitive => exact runs_visitPrimitive hs hshape
    | unrecognized => exact runs_throw hs (hE _ .unrecognized)
  | _ => exact runs_throw hs (hE _ .unrecognized)

/-- **Compiling to any depth.** What holds of every schema that is entered, with the depth that is
    left for it, bounds how compiling it fails. The session stays orderly. -/
theorem runs_visit_within {P : Nat → Json → Session → Prop} (options : Options)
    (hend : ∀ S s, P 0 S s → E .endless)
    (henter : ∀ depth S S' s s', P (depth + 1) S s → Enters document S S' s s' → P depth S' s')
    (hcounts : tidy → ∀ depth S s, P (depth + 1) S s → HasWholeCounts S)
    (hE : ∀ depth S s e, P (depth + 1) S s → Fault options s.resolver S e → E e) (depth : Nat)
    (hint : String) (hs : s.Orderly tidy) (hP : P depth S s) :
    Runs tidy (hint ≠ "") E (Visited document S hint s) (visit options depth S hint) s := by
  induction depth generalizing S hint s with
  | zero => exact runs_throw hs (hend S s hP)
  | succ depth ih =>
    refine runs_visitWith (hE depth S s · hP) (fun S' hint' s' henters hs' => ?_) hs fun htidy => ?_
    · exact ih hint' hs' (henter depth S S' s s' hP henters)
    · exact hcounts htidy depth S s hP

/-- What holds of every schema that is entered, whatever the depth, bounds how compiling it fails;
    apart from that, compiling fails only where schemas nest too deep. -/
theorem runs_visit_of {P : Json → Session → Prop} (options : Options) (hend : E .endless)
    (henter : ∀ S S' s s', P S s → Enters document S S' s s' → P S' s')
    (hcounts : tidy → ∀ S s, P S s → HasWholeCounts S)
    (hE : ∀ S s e, P S s → Fault options s.resolver S e → E e) (depth : Nat) (hint : String)
    (hs : s.Orderly tidy) (hP : P S s) :
    Runs tidy (hint ≠ "") E (Visited document S hint s) (visit options depth S hint) s :=
  runs_visit_within (P := fun _ => P) options (fun _ _ _ => hend) (fun _ => henter)
    (fun htidy _ => hcounts htidy) (fun _ => hE) depth hint hs hP

/-- Where bodies are kept tidy, references are recorded and all schemas that are met have whole
    counts. -/
structure Supports (document : Json) (tidy : Prop) (S : Json) (s : Session) : Prop where
  records : tidy → s.resolver.Records document
  reaches : tidy → ∀ S', Reaches document S S' → HasWholeCounts S'

theorem Supports.enter {S' : Json} {s' : Session} (h : Supports document tidy S s)
    (henters : Enters document S S' s s') : Supports document tidy S' s' := by
  refine ⟨fun htidy => henters.resolver ▸ h.records htidy, fun htidy T hT => ?_⟩
  exact h.reaches htidy T (.head (henters.inside (h.records htidy)) hT)

/-- The only failures that no schema is to blame for are those of schemas that nest too deep. -/
theorem runs_visit (options : Options) (depth : Nat) (hint : String) (hs : s.Orderly tidy)
    (hsupports : Supports document tidy S s) :
    Runs tidy (hint ≠ "") (fun e => e.IsOfSchema ∨ e = .endless) (Visited document S hint s)
      (visit options depth S hint) s :=
  runs_visit_of options (.inr rfl) (fun _ _ _ _ hP henters => hP.enter henters)
    (fun htidy S _ hP => hP.reaches htidy S (.refl document S)) (fun _ _ _ _ he => .inl he.isOfSchema)
    depth hint hs hsupports

end Visits

end Schema

end SchemaGrammar
