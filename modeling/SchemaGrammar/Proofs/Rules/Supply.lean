import SchemaGrammar.Proofs.Rules.Catalog

set_option autoImplicit false

/-! # Built-in rules can always be added

The rules of the catalog need each other in cycles, so adding one of them is bounded by a depth.
Each round defines a name of the catalog that was missing, and there are fewer missing names than
rounds. In a table that agrees with the catalog, adding a built-in rule therefore ends well
(`Coherent.addNamed`). -/

namespace SchemaGrammar

namespace RuleTable

/-- The names of the catalog that a table does not define. -/
def missing (t : RuleTable) : Finset String :=
  (Builtin.catalog.map Prod.fst).toFinset.filter fun name => t.has name = false

theorem missing_subset {t t' : RuleTable} (h : t.Extends t') : t'.missing ⊆ t.missing := by
  refine Finset.monotone_filter_right _ fun name _ hname => ?_
  by_contra hhas
  rw [h.has (by simpa using hhas)] at hname
  exact absurd hname (by simp)

/-- A name that is no longer missing leaves fewer of them. -/
theorem card_missing_lt {t t' : RuleTable} (h : t.Extends t') {name : String} {rule : Builtin}
    (hrule : Builtin.find? name = some rule) (hnone : t.find? name = none)
    (hhas : t'.has name = true) : t'.missing.card < t.missing.card := by
  refine Finset.card_lt_card ⟨missing_subset h, fun hsub => ?_⟩
  have hmem : name ∈ t.missing := by
    refine Finset.mem_filter.2 ⟨List.mem_toFinset.2 ?_, has_eq_false_iff.2 hnone⟩
    exact List.mem_map.2 ⟨_, Assoc.mem_of_lookup hrule, rfl⟩
  rw [(Finset.mem_filter.1 (hsub hmem)).2] at hhas
  exact absurd hhas (by simp)

theorem get_of_need {name need : String} {rule : Builtin} (hrule : Builtin.find? name = some rule)
    (hneed : need ∈ rule.needs) : ∃ needed, Builtin.get need = .ok needed := by
  have hall : ∀ x ∈ Builtin.catalog, ∀ need ∈ x.2.needs, (Builtin.find? need).isSome = true := by
    decide
  obtain ⟨needed, hfound⟩ := Option.isSome_iff_exists.1
    (hall _ (Assoc.mem_of_lookup hrule) need hneed)
  exact ⟨needed, by rw [Builtin.get, hfound]⟩

section Supply

variable {sorted : Prop} {pending : String → Prop} {t : RuleTable} {name own : String}
variable {rule : Builtin}

theorem Coherent.exists_addBuiltinFrom {depth : Nat} (h : t.Coherent sorted pending)
    (hown : Builtin.find? own = some rule) (hname : name ≠ "")
    (hwhich : name = own ∨ Builtin.find? (escapeName name) = none)
    (hdepth : (t.add name rule.body).2.missing.card < depth) :
    ∃ slot t', addBuiltinFrom depth name rule t = .ok slot t' := by
  induction depth generalizing pending t name own rule with
  | zero => exact absurd hdepth (Nat.not_lt_zero _)
  | succ depth ih =>
    refine Work.bind_succeeds (I := fun s => s = (t.add name rule.body).2) ⟨_, _, rfl, rfl⟩ ?_
    rintro stored _ rfl
    -- whatever is needed is still pending, and what was there stays there
    refine Work.bind_succeeds (Work.forM_succeeds (I := fun s : RuleTable =>
      s.Coherent sorted (fun need => pending need ∨ need ∈ rule.needs) ∧
        (t.add name rule.body).2.Extends s) ?_ ⟨h.add_builtin hown hname hwhich, .refl _⟩)
      fun _ s _ => ⟨_, s, rfl⟩
    rintro need hneed s ⟨hs, hext⟩
    obtain ⟨needed, hget⟩ := get_of_need hown hneed
    have hfound := Builtin.find?_of_get hget
    cases hfind : s.find? need with
    | none =>
      -- the rule that is added next was missing
      have hadds := adds_add hs.wellFormed need needed.body
      have hhas : (s.add need needed.body).2.has need = true := by
        have hthere := has_of_find? hadds.find?
        rwa [hs.slot_eq hfound] at hthere
      have hfewer := card_missing_lt hadds.extends hfound hfind hhas
      have hle := Finset.card_le_card (missing_subset hext)
      obtain ⟨slot, s', hrun⟩ := ih hs hfound (escapeName_builtin hfound).1 (.inl rfl) (by omega)
      have hadded := addsBuiltin_addBuiltinFrom hs hfound (escapeName_builtin hfound).1
        (.inl rfl) hrun
      refine ⟨(), s', ?_, hadded.coherent, hext.trans hadded.extends_⟩
      refine Work.bind_eq_ok.2 ⟨needed, s, Work.ofExcept_eq_ok.2 ⟨hget, rfl⟩, ?_⟩
      refine Work.bind_eq_ok.2 ⟨s, s, rfl, ?_⟩
      simp only [hfind]
      exact Work.bind_eq_ok.2 ⟨slot, s', hrun, rfl⟩
    | some body =>
      have hbody := (hs.builtin need needed hfound (has_of_find? hfind)).1
      obtain rfl : body = needed.body := Option.some.inj (hfind.symm.trans hbody)
      refine ⟨(), s, ?_, hs, hext⟩
      refine Work.bind_eq_ok.2 ⟨needed, s, Work.ofExcept_eq_ok.2 ⟨hget, rfl⟩, ?_⟩
      refine Work.bind_eq_ok.2 ⟨s, s, rfl, ?_⟩
      simp [hfind, Work.pure_eq_ok]

/-- **A built-in rule can be added** under its own name, or under one that is not built in. -/
theorem Coherent.addNamed (h : t.Coherent sorted pending) (hown : Builtin.find? own = some rule)
    (hname : name ≠ "") (hwhich : name = own ∨ Builtin.find? (escapeName name) = none) :
    ∃ slot t', RuleTable.addNamed name own t = .ok slot t' ∧
      AddsBuiltin sorted pending t name rule slot t' := by
  have hdepth : (t.add name rule.body).2.missing.card < Builtin.catalog.length + 2 := by
    have hle : (t.add name rule.body).2.missing.card ≤ (Builtin.catalog.map Prod.fst).length :=
      (Finset.card_filter_le _ _).trans (List.toFinset_card_le _)
    rw [List.length_map] at hle
    omega
  obtain ⟨slot, t', hrun⟩ := h.exists_addBuiltinFrom hown hname hwhich hdepth
  have hget : Builtin.get own = .ok rule := by rw [Builtin.get, hown]
  refine ⟨slot, t', ?_, addsBuiltin_addBuiltinFrom h hown hname hwhich hrun⟩
  exact Work.bind_eq_ok.2 ⟨rule, t, Work.ofExcept_eq_ok.2 ⟨hget, rfl⟩, hrun⟩

end Supply

end RuleTable

end SchemaGrammar
