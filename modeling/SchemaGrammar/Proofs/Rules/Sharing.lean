import SchemaGrammar.Proofs.Rules.WriteOnce

set_option autoImplicit false

/-! # Registering a rule again

A body that is registered again under its name is to be found in the slot that it has. Numbered slots
are tried in order, and none in front of that slot was free for the body the first time. One that held
another body is never free for it, but one that waited for its body may have been given back since,
or filled with this very body. This is the only way for a body to get a second slot
(`shares_slot_iff`), and it does happen (`returned_slot_is_taken`). -/

namespace SchemaGrammar

namespace RuleTable

/-! ## The slot of a body -/

section Slots

variable {t t' : RuleTable} {name body first slot other : String}

theorem Slot.unique (h : Slot t name body slot) (h' : Slot t name body other) : slot = other := by
  have hexcludes (hown : escapeName name ∈ t.reserved ∨ t.CanHold (escapeName name) body)
      (htaken : escapeName name ∉ t.reserved ∧ ¬ t.CanHold (escapeName name) body) : False :=
    hown.elim htaken.1 htaken.2
  cases h with
  | own hown =>
    cases h' with
    | own => rfl
    | numbered _ htaken => exact (hexcludes hown htaken).elim
  | numbered i htaken hholds hleast =>
    cases h' with
    | own hown => exact (hexcludes hown htaken).elim
    | numbered j _ hholds' hleast' =>
      rcases Nat.lt_trichotomy i j with hlt | rfl | hlt
      · exact absurd hholds (hleast' i hlt)
      · rfl
      · exact absurd hholds' (hleast j hlt)

/-- The slots of a name that are tried before a numbered one, apart from the name itself. -/
def Precedes (name first slot : String) : Prop :=
  ∃ i j, i < j ∧ first = numbered (escapeName name) i ∧ slot = numbered (escapeName name) j

theorem not_precedes_own : ¬ Precedes name first (escapeName name) := by
  rintro ⟨_, j, _, _, heq⟩
  have hlength := congrArg (fun s => s.toList.length) heq
  have hpos : 0 < (natText j).toList.length := by
    rw [natText, String.toList_ofList]
    exact Nat.length_toDigits_pos
  simp only [numbered, String.toList_append, List.length_append] at hlength
  omega

theorem precedes_numbered {j : Nat} :
    Precedes name first (numbered (escapeName name) j) ↔
      ∃ i < j, first = numbered (escapeName name) i := by
  constructor
  · rintro ⟨i, k, hlt, rfl, heq⟩
    obtain rfl := numbered_injective _ heq
    exact ⟨i, hlt, rfl⟩
  · rintro ⟨i, hlt, rfl⟩
    exact ⟨i, j, hlt, rfl, rfl⟩

/-! ## Later tables -/

/-- A body that is there can stay there: its name does not wait for another one. -/
theorem canHold_of_find? (ht : t.WellFormed) (h : t.find? name = some body) : t.CanHold name body := by
  refine ⟨fun hwaits => ?_, .inr h⟩
  rw [ht.waiting name hwaits] at h
  cases h

/-- What a name cannot hold, and what is not claimed, it cannot hold later. -/
theorem not_canHold_of_extends (hext : t.Extends t') (hout : first ∉ t.reserved)
    (h : ¬ t.CanHold first body) : ¬ t'.CanHold first body := by
  cases hfind : t.find? first with
  | none => exact absurd ⟨hout, .inl hfind⟩ h
  | some found =>
    have hne : found ≠ body := by
      rintro rfl
      exact h ⟨hout, .inr hfind⟩
    rintro ⟨-, hnone | hsome⟩
    · rw [hext.find? hfind] at hnone
      cases hnone
    · rw [hext.find? hfind] at hsome
      exact hne (Option.some.inj hsome)

/-- The name that a rule was refused stays out of reach for it. -/
theorem taken_of_extends (ht' : t'.WellFormed) (hext : t.Extends t')
    (h : escapeName name ∉ t.reserved ∧ ¬ t.CanHold (escapeName name) body) :
    escapeName name ∉ t'.reserved ∧ ¬ t'.CanHold (escapeName name) body := by
  refine ⟨fun hwaits => ?_, not_canHold_of_extends hext h.1 h.2⟩
  cases hfind : t.find? (escapeName name) with
  | none => exact h.2 ⟨h.1, .inl hfind⟩
  | some found =>
    have hthere := hext.find? hfind
    rw [ht'.waiting _ hwaits] at hthere
    cases hthere

/-- Later, the slot of a body is the one that it has, unless a slot in front of it was claimed and
    can now hold the body. -/
theorem Slot.later (h : Slot t name body slot) (ht' : t'.WellFormed) (hext : t.Extends t')
    (hfind : t'.find? slot = some body) (h' : Slot t' name body other) :
    (other = slot ↔ ∀ first, Precedes name first slot → first ∈ t.reserved →
      ¬ t'.CanHold first body) ∧
    (other ≠ slot → Precedes name other slot ∧ other ∈ t.reserved) := by
  have hholds : t'.CanHold slot body := canHold_of_find? ht' hfind
  cases h with
  | own =>
    -- the name itself is tried first, so nothing can come in front of it
    obtain rfl : other = escapeName name := h'.unique (.own (.inr hholds))
    exact ⟨⟨fun _ _ hbefore => absurd hbefore not_precedes_own, fun _ => rfl⟩, fun hne => absurd rfl hne⟩
  | numbered j htaken _ hleast =>
    have htaken' := taken_of_extends ht' hext htaken
    -- only claimed slots can have become free
    have hclaimed {i : Nat} (hi : i < j)
        (hcan : t'.CanHold (RuleTable.numbered (escapeName name) i) body) :
        RuleTable.numbered (escapeName name) i ∈ t.reserved := by
      by_contra hout
      exact not_canHold_of_extends hext hout (hleast i hi) hcan
    cases h' with
    | own hown => exact (hown.elim htaken'.1 htaken'.2).elim
    | numbered i _ hcan hleast' =>
      have hle : i ≤ j := by
        by_contra hlt
        exact hleast' j (Nat.lt_of_not_le hlt) hholds
      refine ⟨⟨fun heq first hbefore _ => ?_, fun hnone => ?_⟩, fun hne => ?_⟩
      · obtain rfl := numbered_injective _ heq
        obtain ⟨k, hk, rfl⟩ := precedes_numbered.1 hbefore
        exact hleast' k hk
      · rcases Nat.lt_or_eq_of_le hle with hlt | rfl
        · exact absurd hcan (hnone _ (precedes_numbered.2 ⟨i, hlt, rfl⟩) (hclaimed hlt hcan))
        · rfl
      · have hlt : i < j := Nat.lt_of_le_of_ne hle fun heq => hne (by rw [heq])
        exact ⟨precedes_numbered.2 ⟨i, hlt, rfl⟩, hclaimed hlt hcan⟩

/-- A body that finds itself in its slot leaves the table as it is. -/
theorem Adds.eq_of_find? (h : Adds t name body slot t') (ht : t.WellFormed)
    (hfind : t.find? slot = some body) : t' = t := by
  have hreserved : t'.reserved = t.reserved := by
    rw [h.reserved, ← filter_reserved ht hfind]
  have hrules : t'.rules = t.rules := by
    rcases h.rules with ⟨hrules, -⟩ | ⟨-, hnone⟩
    · exact hrules
    · rw [hfind] at hnone
      cases hnone
  cases t
  cases t'
  simp_all

end Slots

/-! ## Registering again -/

/-- **A body is registered once.** Take a table that some operations have made from a new one, and
    register a rule. After any more operations, registering it again changes nothing and gives the
    same slot, unless one of the slots in front was claimed the first time and is now free or holds
    the body. If the body, registered under any name that is stored alike, gets another slot, then it
    is one of these. -/
theorem shares_slot_iff (operations more : List Operation) (name body : String) :
    let t := run operations new
    let slot := (t.add name body).1
    let t' := run more (t.add name body).2
    (t'.add name body = (slot, t') ↔
      ∀ first, Precedes name first slot → first ∈ t.reserved → ¬ t'.CanHold first body) ∧
    ∀ other, escapeName other = escapeName name → (t'.add other body).1 ≠ slot →
      Precedes name (t'.add other body).1 slot ∧ (t'.add other body).1 ∈ t.reserved := by
  intro t slot t'
  have ht : t.WellFormed := (evolves_run operations new wellFormed_new).1
  have hadds := adds_add ht name body
  obtain ⟨ht', hmore⟩ := evolves_run more _ (hadds.wellFormed ht)
  have hfind : t'.find? slot = some body := hmore.find? hadds.find?
  obtain ⟨hsame, hother⟩ := (slot_add t name body).later ht' (hadds.extends.trans hmore) hfind
    (slot_add t' name body)
  refine ⟨⟨fun hagain => hsame.1 (by rw [hagain]), fun hnone => ?_⟩, fun other hname hne => ?_⟩
  · have hslot : (t'.add name body).1 = slot := hsame.2 hnone
    have hagain := adds_add ht' name body
    rw [hslot] at hagain
    exact Prod.ext hslot (hagain.eq_of_find? ht' hfind)
  · have halike : t'.add other body = t'.add name body := by
      unfold add
      rw [hname]
    rw [halike] at hne ⊢
    exact hother hne

/-- A slot is claimed, passed over, given back and then taken by the body that has passed it over: the
    same body under the same name has two slots. -/
theorem returned_slot_is_taken :
    let t := run [.add "item" "string", .reserve "item"] new
    let t' := run [.release "item0"] (t.add "item" "integer").2
    (t.add "item" "integer").1 = "item1" ∧ (t'.add "item" "integer").1 = "item0" ∧
      (t'.add "item" "integer").2.find? "item1" = some "integer" ∧
        (t'.add "item" "integer").2.find? "item0" = some "integer" := by
  decide

end RuleTable

end SchemaGrammar
