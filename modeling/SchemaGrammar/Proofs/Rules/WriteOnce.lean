import SchemaGrammar.Proofs.Rules.Table
import SchemaGrammar.Proofs.Work

set_option autoImplicit false

/-! # Rules are written once

The operations of a table can be called in any order, and registering a built-in rule may fail
half-way. Whatever happens, a claimed name has no body, and a body that is there stays as it is
(`Evolves`). Where a new body goes is said by `Slot`: under the name that was asked for if that can
be, else under the first number behind it that can be. -/

namespace SchemaGrammar

namespace RuleTable

/-! ## Operations -/

/-- The operations of a table. -/
inductive Operation where
  | add (name body : String)
  | reserve (name : String)
  | release (name : String)
  | addBuiltin (name : String) (rule : Builtin)

/-- What an operation does; the result is the name that it gives, if it gives one. -/
def Operation.work : Operation → TableM (Option String)
  | .add name body => some <$> addRule name body
  | .reserve name => modifyGet fun t => ((t.reserve name).1, (t.reserve name).2)
  | .release name => modifyGet fun t => (none, t.release name)
  | .addBuiltin name rule => some <$> RuleTable.addBuiltin name rule

/-- The table after some operations, of which any may have failed. -/
def run (operations : List Operation) (t : RuleTable) : RuleTable :=
  operations.foldl (fun t operation => Work.leaves operation.work t) t

/-- A table goes on to another one in which all rules are still there. -/
def Evolves (t t' : RuleTable) : Prop :=
  t.WellFormed → t'.WellFormed ∧ t.Extends t'

instance : IsPreorder RuleTable Evolves where
  refl t h := ⟨h, .refl t⟩
  trans _ _ _ h h' hwf := by
    obtain ⟨hwf', hext⟩ := h hwf
    obtain ⟨hwf'', hext'⟩ := h' hwf'
    exact ⟨hwf'', hext.trans hext'⟩

theorem evolves_add (name body : String) (t : RuleTable) : Evolves t (t.add name body).2 := by
  intro hwf
  have hadds := adds_add hwf name body
  exact ⟨hadds.wellFormed hwf, hadds.extends⟩

theorem within_addRule (name body : String) : Work.Within Evolves (addRule name body) :=
  evolves_add name body

theorem within_addBuiltinFrom (depth : Nat) (name : String) (rule : Builtin) :
    Work.Within Evolves (addBuiltinFrom depth name rule) := by
  induction depth generalizing name rule with
  | zero => exact .throw _
  | succ depth ih =>
    refine (within_addRule name rule.body).bind fun stored => ?_
    refine (Work.Within.forM fun need _ => ?_).bind fun _ => .pure stored
    refine (Work.Within.ofExcept _).bind fun needed => Work.Within.get.bind fun t => ?_
    split
    · exact (ih need needed).bind fun _ => .pure _
    · split_ifs
      · exact .throw _
      · exact .pure _

/-- Each operation leaves all rules as they are, also where it fails. -/
theorem within_work (operation : Operation) : Work.Within Evolves operation.work := by
  cases operation with
  | add name body => exact (within_addRule name body).bind fun _ => .pure _
  | reserve name => exact fun t hwf => ⟨wellFormed_reserve hwf name, .refl t⟩
  | release name => exact fun t hwf => ⟨wellFormed_release hwf name, .refl t⟩
  | addBuiltin name rule => exact (within_addBuiltinFrom _ name rule).bind fun _ => .pure _

theorem evolves_run (operations : List Operation) (t : RuleTable) : Evolves t (run operations t) :=
  Work.Within.foldl within_work operations t

/-! ## Where a body goes -/

/-- A body can be stored under a name: the name does not wait for another body, and nothing or the
    same body is there. -/
def CanHold (t : RuleTable) (name body : String) : Prop :=
  name ∉ t.reserved ∧ (t.find? name = none ∨ t.find? name = some body)

/-- The slot of a body whose rule is to have the given name. -/
inductive Slot (t : RuleTable) (name body : String) : String → Prop where
  | own (h : escapeName name ∈ t.reserved ∨ t.CanHold (escapeName name) body) :
      Slot t name body (escapeName name)
  | numbered (i : Nat) (taken : escapeName name ∉ t.reserved ∧ ¬ t.CanHold (escapeName name) body)
      (holds : t.CanHold (RuleTable.numbered (escapeName name) i) body)
      (least : ∀ j < i, ¬ t.CanHold (RuleTable.numbered (escapeName name) j) body) :
      Slot t name body (RuleTable.numbered (escapeName name) i)

theorem isFreeFor_iff {t : RuleTable} {name body : String} :
    t.isFreeFor name body = true ↔ t.CanHold name body := by
  rw [isFreeFor, CanHold, Bool.and_eq_true]
  refine and_congr (by simp) ?_
  cases h : t.find? name with
  | none => simp
  | some other => simp

/-- No number before the least one passes the test. -/
theorem not_of_lt_leastIndex {t : RuleTable} {free : Nat → Bool} {j : Nat}
    (h : j < t.leastIndex free) : free j = false := by
  unfold leastIndex at h
  dsimp only at h
  cases hfind : (List.range (t.rules.length + t.reserved.length + 1)).find? free with
  | some i =>
    rw [hfind, Option.getD_some] at h
    simpa using (List.find?_range_eq_some.1 hfind).2.2 j h
  | none =>
    rw [hfind, Option.getD_none] at h
    simpa using List.find?_range_eq_none.1 hfind j (by omega)

theorem slot_add (t : RuleTable) (name body : String) :
    Slot t name body (t.add name body).1 := by
  unfold add
  dsimp only
  split_ifs with hreserved
  · exact .own (.inl (List.contains_iff_mem.1 hreserved))
  · have hout : escapeName name ∉ t.reserved := fun h => hreserved (List.contains_iff_mem.2 h)
    split
    · rename_i hnone
      exact .own (.inr ⟨hout, .inl hnone⟩)
    · rename_i other hother
      split_ifs with hsame
      · obtain rfl : other = body := by simpa using hsame
        exact .own (.inr ⟨hout, .inr hother⟩)
      · have htaken : ¬ t.CanHold (escapeName name) body := by
          rintro ⟨-, h | h⟩
          · simp [h] at hother
          · have heq : other = body := Option.some.inj (hother.symm.trans h)
            exact hsame (by simp [heq])
        refine .numbered _ ⟨hout, htaken⟩ ?_ fun j hj => ?_
        · exact isFreeFor_iff.1 (leastIndex_free t (escapeName name)
            (fun i => t.isFreeFor (RuleTable.numbered (escapeName name) i) body)
            fun i hi => mem_takenNames_of_isFreeFor hi)
        · rw [← isFreeFor_iff]
          simpa using not_of_lt_leastIndex hj

/-! ## Whole runs -/

/-- **Rules are written once.** Take a table that some operations have made from a new one. Its
    claimed names are not defined, and what it defines stays through any more operations. A rule
    that is added is there afterwards under the name that is given back, and that name is the one
    asked for or has the least number that can be. -/
theorem rules_written_once (operations more : List Operation) :
    let t := run operations new
    (∀ name ∈ t.reserved, t.has name = false) ∧
      (∀ name body, t.find? name = some body → (run more t).find? name = some body) ∧
      ∀ name body, ∃ slot t', addRule name body t = .ok slot t' ∧ t'.find? slot = some body ∧
        Slot t name body slot := by
  intro t
  have hwf : t.WellFormed := (evolves_run operations new wellFormed_new).1
  refine ⟨fun name hname => has_eq_false_iff.2 (hwf.waiting name hname), ?_, ?_⟩
  · intro name body hbody
    exact (evolves_run more t hwf).2.find? hbody
  · intro name body
    exact ⟨_, _, rfl, (adds_add hwf name body).find?, slot_add t name body⟩

end RuleTable

end SchemaGrammar
