import SchemaGrammar.Proofs.Schema.Invariant

set_option autoImplicit false

/-! # The builder for references is exact

A reference claims a name, its target is compiled, and then the reference is settled
(`referenceRule_eq_ok`). The rule of a reference has the language of its target: the rule that the
target was given when the reference was met first. While the target is compiled the reference is
busy. -/

namespace SchemaGrammar

open RuleTable (HasPlainDigits Requestable escapeName IsSlot)

/-! ## What happens to a reference -/

namespace Session

/-- The name that a reference claims. -/
def claimedName (s : Session) (ref : String) : String :=
  (s.table.reserve (Schema.referenceName ref)).1

/-- The session when a reference has claimed its name. -/
def claim (s : Session) (ref : String) : Session :=
  ⟨(s.table.reserve (Schema.referenceName ref)).2, s.resolver,
    Assoc.set s.ruleNames ref (s.claimedName ref), .claimed ref (s.claimedName ref) :: s.history⟩

/-- The session when the target of a reference is compiled. -/
def settle (s : Session) (ref claimed found : String) : Session :=
  if found = claimed then { s with history := .settled ref found :: s.history }
  else ⟨s.table.release claimed, s.resolver, Assoc.set s.ruleNames ref found,
    .settled ref found :: s.history⟩

/-- The session when a rule stands for a reference. -/
def link (s : Session) (ref name rule : String) : Session :=
  { s with history := .linked ref name rule :: s.history }

theorem rules_settle (s : Session) (ref claimed found : String) :
    (s.settle ref claimed found).table.rules = s.table.rules := by
  rw [settle]
  split_ifs <;> rfl

/-- A reference that is settled has the rule of its target. -/
theorem lookup_settle {s : Session} {ref claimed : String}
    (h : s.ruleNames.lookup ref = some claimed) (found r : String) :
    (s.settle ref claimed found).ruleNames.lookup r =
      if r = ref then some found else s.ruleNames.lookup r := by
  rw [settle]
  split_ifs with hsame hr hr
  · rw [hr, h, hsame]
  · rfl
  · rw [Assoc.lookup_set, if_pos hr]
  · rw [Assoc.lookup_set, if_neg hr]

theorem sound_settle {plain : Prop} {s : Session} {ref claimed found : String} (h : s.table.Sound plain) :
    (s.settle ref claimed found).table.Sound plain := by
  rw [settle]
  split_ifs
  · exact h
  · exact h.release claimed

end Session

namespace Schema

section Inversion

variable {visit : Visit} {s s' : Session} {ref name : String} {target : Json}

theorem referenceRule_eq_ok {found : String} (h : referenceRule visit ref target s = .ok found s') :
    ∃ s₁, visit target (s.claimedName ref) (s.claim ref) = .ok found s₁ ∧
      s' = s₁.settle ref (s.claimedName ref) found := by
  unfold referenceRule at h
  obtain ⟨claimed, s₁, hreserve, h₁⟩ := Work.bind_eq_ok.1 h
  obtain ⟨t, ht, rfl⟩ := Session.reserve_eq_ok.1 hreserve
  obtain ⟨_, s₂, hname, h₂⟩ := Work.bind_eq_ok.1 h₁
  obtain rfl := Work.modify_eq_ok.1 hname
  obtain ⟨_, s₃, hnote, h₃⟩ := Work.bind_eq_ok.1 h₂
  obtain rfl := Work.modify_eq_ok.1 hnote
  obtain ⟨result, s₄, hvisit, h₄⟩ := Work.bind_eq_ok.1 h₃
  have hclaimed : s.claimedName ref = claimed := by rw [Session.claimedName, ht]
  have hclaim : s.claim ref =
      ⟨t, s.resolver, Assoc.set s.ruleNames ref claimed, .claimed ref claimed :: s.history⟩ := by
    rw [Session.claim, ht, hclaimed]
  rw [hclaimed, hclaim]
  by_cases hsame : result = claimed
  · rw [if_neg (by simp [hsame])] at h₄
    obtain ⟨_, s₅, hsettled, hlast⟩ := Work.bind_eq_ok.1 h₄
    obtain rfl := Work.modify_eq_ok.1 hsettled
    obtain ⟨rfl, rfl⟩ := Work.pure_eq_ok.1 hlast
    exact ⟨s₄, hvisit, by rw [Session.settle, if_pos hsame]⟩
  · rw [if_pos (by simpa using hsame)] at h₄
    obtain ⟨_, s₅, hrelease, h₅⟩ := Work.bind_eq_ok.1 h₄
    obtain rfl := Session.release_eq_ok.1 hrelease
    obtain ⟨_, s₆, hrename, h₆⟩ := Work.bind_eq_ok.1 h₅
    obtain rfl := Work.modify_eq_ok.1 hrename
    obtain ⟨_, s₇, hsettled, hlast⟩ := Work.bind_eq_ok.1 h₆
    obtain rfl := Work.modify_eq_ok.1 hsettled
    obtain ⟨rfl, rfl⟩ := Work.pure_eq_ok.1 hlast
    exact ⟨s₄, hvisit, by rw [Session.settle, if_neg hsame]⟩

theorem target_eq_ok {target : Json} (h : Session.target (.str ref) s = .ok target s') :
    s.resolver.find? ref = some target ∧ s = s' := by
  unfold Session.target at h
  obtain ⟨_, s₁, hcheck, h₁⟩ := Work.bind_eq_ok.1 h
  obtain ⟨-, rfl⟩ := Work.ofExcept_eq_ok.1 hcheck
  obtain ⟨s₂, s₃, hget, h₂⟩ := Work.bind_eq_ok.1 h₁
  obtain ⟨rfl, rfl⟩ := Work.get_eq_ok.1 hget
  cases hfind : s.resolver.find? ref with
  | some v =>
    simp only [hfind] at h₂
    obtain ⟨rfl, rfl⟩ := Work.pure_eq_ok.1 h₂
    exact ⟨rfl, rfl⟩
  | none =>
    simp only [hfind] at h₂
    exact absurd h₂ Work.throw_ne_ok

/-- The rule that a reference leads to: the one it has, or that of its target. -/
def LeadsTo (visit : Visit) (ref rule : String) (s s₁ : Session) : Prop :=
  s.ruleNames.lookup ref = some rule ∧ s₁ = s ∨
    s.ruleNames.lookup ref = none ∧ ∃ target, s.resolver.find? ref = some target ∧
      referenceRule visit ref target s = .ok rule s₁

theorem visitRef_eq_ok {x : Site} (h : visitRef visit x s = .ok name s') :
    ∃ ref rule s₁ s₂, x.keyword "$ref" = .str ref ∧ LeadsTo visit ref rule s s₁ ∧
      Session.addRule x.ruleName rule s₁ = .ok name s₂ ∧ s' = s₂.link ref name rule := by
  unfold visitRef at h
  obtain ⟨_, s₁, hcheck, h₁⟩ := Work.bind_eq_ok.1 h
  obtain ⟨-, rfl⟩ := Work.ofExcept_eq_ok.1 hcheck
  cases hkeyword : x.keyword "$ref" with
  | str ref =>
    rw [hkeyword] at h₁
    obtain ⟨s₂, s₃, hget, h₂⟩ := Work.bind_eq_ok.1 h₁
    obtain ⟨rfl, rfl⟩ := Work.get_eq_ok.1 hget
    have hfinish {rule : String} {s₁ : Session} (hlead : LeadsTo visit ref rule s s₁)
        (hlink : (do
          let name ← Session.addRule x.ruleName rule
          Session.note (.linked ref name rule)
          return name) s₁ = .ok name s') : ∃ ref' rule s₁ s₂, Json.str ref = .str ref' ∧
            LeadsTo visit ref' rule s s₁ ∧ Session.addRule x.ruleName rule s₁ = .ok name s₂ ∧
            s' = s₂.link ref' name rule := by
      obtain ⟨slot, s₂, hadd, hmore⟩ := Work.bind_eq_ok.1 hlink
      obtain ⟨_, s₃, hnote, hlast⟩ := Work.bind_eq_ok.1 hmore
      obtain rfl := Work.modify_eq_ok.1 hnote
      obtain ⟨rfl, rfl⟩ := Work.pure_eq_ok.1 hlast
      exact ⟨ref, rule, s₁, s₂, rfl, hlead, hadd, rfl⟩
    cases hlookup : s.ruleNames.lookup ref with
    | some known =>
      simp only [hlookup] at h₂
      obtain ⟨rule, s₁, hrule, hlink⟩ := Work.bind_eq_ok.1 h₂
      obtain ⟨rfl, rfl⟩ := Work.pure_eq_ok.1 hrule
      exact hfinish (.inl ⟨hlookup, rfl⟩) hlink
    | none =>
      simp only [hlookup] at h₂
      obtain ⟨target, s₁, htarget, h₃⟩ := Work.bind_eq_ok.1 h₂
      obtain ⟨rule, s₂, hrule, hlink⟩ := Work.bind_eq_ok.1 h₃
      obtain ⟨hfind, rfl⟩ := target_eq_ok htarget
      exact hfinish (.inr ⟨hlookup, target, hfind, hrule⟩) hlink
  | _ =>
    rw [hkeyword] at h₁
    exact absurd h₁ Work.throw_ne_ok

end Inversion

/-! ## Exactness -/

/-- A claimed name is not empty and has plain digits, as the reference's own name has. -/
theorem claimedName_spec (s : Session) (ref : String) :
    s.claimedName ref ≠ "" ∧ HasPlainDigits (s.claimedName ref) := by
  obtain ⟨hescape, -, hne, hdigits⟩ := referenceName_spec ref
  have hslot := RuleTable.isSlot_reserve s.table (referenceName ref)
  refine ⟨(hslot.isStorable hne).1, ?_⟩
  rw [Session.claimedName]
  rcases hslot with heq | ⟨i, heq⟩ <;> rw [heq, hescape]
  · exact hdigits
  · exact hdigits.append (hasPlainDigits_natText i)

section References

variable {options : Options} {document : Json} {plain : Prop} {busy : String → Prop}
variable {s s' : Session} {fields : Json.Fields} {hint name ref : String} {target : Json}

/-- A reference with a claimed name is busy. -/
theorem SoundSession.claim (h : SoundSession options document plain busy s) (ref : String) :
    SoundSession options document plain (fun r => busy r ∨ r = ref) (s.claim ref) := by
  obtain ⟨hescape, hfree, -, -⟩ := referenceName_spec ref
  have hextends : s.table.Extends (s.claim ref).table := .refl _
  refine ⟨h.table.reserve (by rwa [hescape]), h.resolver, fun r name hname => ?_⟩
  rw [Session.claim, Assoc.lookup_set] at hname
  split_ifs at hname with hr
  · exact .inl (.inr hr)
  · rcases h.names r name hname with hbusy | ⟨target, htarget, hdenotes, hcovers⟩
    · exact .inl (.inl hbusy)
    · exact .inr ⟨target, htarget, hdenotes.extend hextends, hcovers.extend hextends⟩

variable {visit : Visit} (hvisit : IsExact options document plain visit)

include hvisit in
/-- The rule of a reference that is met for the first time. -/
theorem referenceRule_spec {found : String} (hs : SoundSession options document plain busy s)
    (htarget : targetOf document ref = some target) (hnew : s.ruleNames.lookup ref = none)
    (hreach : Reaches document document target)
    (hfree : IsFree document (fun r => busy r ∨ r = ref) target)
    (hrun : referenceRule visit ref target s = .ok found s') :
    Proceeds options document plain busy s s' ∧
      s'.table.Denotes found (language options document target) ∧
      Covers document s'.table target := by
  obtain ⟨s₁, hfound, rfl⟩ := referenceRule_eq_ok hrun
  obtain ⟨hne, hdigits⟩ := claimedName_spec s ref
  have hcompiled := hvisit _ _ _ _ _ _ hfound (hs.claim ref) hreach (fun _ => hdigits) hfree
  have hlookup : s₁.ruleNames.lookup ref = some (s.claimedName ref) := by
    refine hcompiled.remembers ref _ ?_
    rw [Session.claim, Assoc.lookup_set, if_pos rfl]
  have hsettled := Session.lookup_settle hlookup found
  have hextends : s₁.table.Extends (s₁.settle ref (s.claimedName ref) found).table := by
    rw [RuleTable.Extends, Session.rules_settle]
  have hdenotes := hcompiled.denotes.extend hextends
  have hcovers := hcompiled.covers.extend hextends
  refine ⟨⟨⟨Session.sound_settle hcompiled.session.table, ?_, fun r name hname => ?_⟩, ?_,
    fun r name hname => ?_, ?_⟩, hdenotes, hcovers⟩
  · rw [Session.settle]
    split_ifs <;> exact hcompiled.session.resolver
  · rw [hsettled] at hname
    split_ifs at hname with hr
    · obtain rfl := Option.some.inj hname
      exact .inr ⟨target, hr ▸ htarget, hdenotes, hcovers⟩
    · rcases hcompiled.session.names r name hname with (hbusy | hr') | ⟨other, hother, hd, hc⟩
      · exact .inl hbusy
      · exact absurd hr' hr
      · exact .inr ⟨other, hother, hd.extend hextends, hc.extend hextends⟩
  · exact (hcompiled.extends_).trans hextends
  · have hr : r ≠ ref := by
      rintro rfl
      rw [hnew] at hname
      exact absurd hname (by simp)
    rw [hsettled, if_neg hr]
    refine hcompiled.remembers r name ?_
    rw [Session.claim, Assoc.lookup_set, if_neg hr]
    exact hname
  · rw [RuleTable.find?, Session.rules_settle]
    exact hcompiled.kept hne

include hvisit in
theorem visitRef_compiled (hcore : Core document)
    (hs : SoundSession options document plain busy s) (hhint : plain → HasPlainDigits hint)
    (hreach : Reaches document document (.obj fields)) (hfree : IsFree document busy (.obj fields))
    (hshape : shape fields = .ref)
    (hrun : visitRef visit ⟨fields, hint, ruleNameFor hint⟩ s = .ok name s') :
    Compiled options document plain busy (.obj fields) hint s s' name := by
  obtain ⟨ref, rule, s₁, s₂, hkeyword, hleads, hadd, rfl⟩ := visitRef_eq_ok hrun
  have href : keyword fields "$ref" = .str ref := hkeyword
  have hrefers : RefersTo ref (.obj fields) := ⟨fields, rfl, hshape, href⟩
  have htargetOf {target : Json} (h : targetOf document ref = some target) :
      referenceTarget document fields = some target := by
    rw [referenceTarget, href]
    exact h
  have hinside {target : Json} (h : targetOf document ref = some target) :
      inside document (.obj fields) = [target] := by
    rw [inside, hshape, htargetOf h]
    rfl
  have hlanguage {target : Json} (h : targetOf document ref = some target) :
      language options document (.obj fields) = language options document target := by
    rw [language_eq, meaningStep, hshape, htargetOf h]
    rfl
  obtain ⟨target, htarget, hproceeds, hdenotes, hcovers⟩ : ∃ target,
      targetOf document ref = some target ∧ Proceeds options document plain busy s s₁ ∧
      s₁.table.Denotes rule (language options document target) ∧ Covers document s₁.table target := by
    rcases hleads with ⟨hknown, rfl⟩ | ⟨hnew, target, hfind, hrule⟩
    · rcases hs.names ref rule hknown with hbusy | ⟨target, htarget, hdenotes, hcovers⟩
      · exact absurd hrefers (hfree ref hbusy _ (.refl document _))
      · exact ⟨target, htarget, .refl hs, hdenotes, hcovers⟩
    · have htarget := hs.resolver.find? hfind
      have hmem : target ∈ inside document (.obj fields) := by simp [hinside htarget]
      refine ⟨target, htarget, referenceRule_spec hvisit hs htarget hnew (hreach.tail hmem) ?_ hrule⟩
      rintro r (hbusy | rfl) S' hS'
      · exact hfree.inside hmem r hbusy S' hS'
      · exact hcore.acyclic r target _ S' hreach hrefers htarget hS'
  have hcompiled : Compiled options document plain busy (.obj fields) hint s s₂ name :=
    hproceeds.addRule (by simp [hshape]) hhint (hlanguage htarget ▸ hdenotes.item.writes)
      (by simpa [hinside htarget] using hcovers) hadd
  exact ⟨⟨hcompiled.session.table, hcompiled.session.resolver, hcompiled.session.names⟩,
    hcompiled.extends_, hcompiled.remembers, hcompiled.denotes, hcompiled.covers, hcompiled.kept,
    hcompiled.rooted⟩

end References

end Schema

end SchemaGrammar
