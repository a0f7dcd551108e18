import Mathlib.Data.Finset.Card
import Mathlib.Data.Finset.Dedup
import Mathlib.Data.List.Nodup
import Mathlib.Tactic.SplitIfs
import SchemaGrammar.Rules.Table

set_option autoImplicit false

/-! # A table only grows

What the operations on a table do, said once: `Adds` for a new rule and `reserve_unused` for a
claimed name. In a table whose claimed names have no bodies yet, rules are only put behind those that are
there, so a body never changes. -/

namespace SchemaGrammar

/-! ## Values by name -/

namespace Assoc

variable {α : Type}

theorem lookup_cons (pair : String × α) (rest : List (String × α)) (name : String) :
    (pair :: rest).lookup name = if name = pair.1 then some pair.2 else rest.lookup name := by
  obtain ⟨key, value⟩ := pair
  by_cases h : name = key
  · simp [h]
  · have hb : (name == key) = false := by simpa using h
    rw [if_neg h, List.lookup_cons, hb]

theorem lookup_append (front back : List (String × α)) (name : String) :
    (front ++ back).lookup name = (front.lookup name).or (back.lookup name) := by
  induction front with
  | nil => simp
  | cons pair rest ih =>
    rw [List.cons_append, lookup_cons, lookup_cons, ih]
    split_ifs <;> simp

theorem lookup_isSome_iff {pairs : List (String × α)} {name : String} :
    (pairs.lookup name).isSome = true ↔ name ∈ pairs.map Prod.fst := by
  induction pairs with
  | nil => simp
  | cons pair rest ih =>
    rw [lookup_cons]
    split_ifs with h
    · simp [h]
    · simp [ih, h]

theorem lookup_eq_none_iff {pairs : List (String × α)} {name : String} :
    pairs.lookup name = none ↔ name ∉ pairs.map Prod.fst := by
  rw [← lookup_isSome_iff]
  cases pairs.lookup name <;> simp

theorem mem_of_lookup {pairs : List (String × α)} {name : String} {value : α}
    (h : pairs.lookup name = some value) : (name, value) ∈ pairs := by
  induction pairs with
  | nil => simp at h
  | cons pair rest ih =>
    rw [lookup_cons] at h
    split_ifs at h with hname
    · obtain rfl := Option.some.inj h
      simp [hname]
    · exact List.mem_cons_of_mem _ (ih h)

theorem lookup_of_mem {pairs : List (String × α)} (hnodup : (pairs.map Prod.fst).Nodup)
    {name : String} {value : α} (h : (name, value) ∈ pairs) :
    pairs.lookup name = some value := by
  induction pairs with
  | nil => simp at h
  | cons pair rest ih =>
    rw [List.map_cons, List.nodup_cons] at hnodup
    rw [lookup_cons]
    rcases List.mem_cons.1 h with rfl | h
    · simp
    · have hne : name ≠ pair.1 := by
        rintro rfl
        exact hnodup.1 (List.mem_map.2 ⟨_, h, rfl⟩)
      rw [if_neg hne, ih hnodup.2 h]

theorem set_of_lookup_eq_none {pairs : List (String × α)} {name : String} (value : α)
    (h : pairs.lookup name = none) : set pairs name value = pairs ++ [(name, value)] := by
  induction pairs with
  | nil => rfl
  | cons pair rest ih =>
    obtain ⟨key, other⟩ := pair
    rw [lookup_cons] at h
    split_ifs at h with hname
    have hb : (key == name) = false := by simpa using fun he : key = name => hname he.symm
    simp [set, hb, ih h]

theorem set_of_lookup_eq_some {pairs : List (String × α)} {name : String} {value : α}
    (h : pairs.lookup name = some value) : set pairs name value = pairs := by
  induction pairs with
  | nil => simp at h
  | cons pair rest ih =>
    obtain ⟨key, other⟩ := pair
    rw [lookup_cons] at h
    by_cases hname : name = key
    · subst hname
      rw [if_pos rfl] at h
      simp [set, (Option.some.inj h).symm]
    · rw [if_neg hname] at h
      have hb : (key == name) = false := by simpa using fun he : key = name => hname he.symm
      simp [set, hb, ih h]

/-- Setting a name brings in nothing but its new value. -/
theorem mem_of_mem_set {pairs : List (String × α)} {name : String} {value : α} {x : String × α}
    (h : x ∈ set pairs name value) : x ∈ pairs ∨ x = (name, value) := by
  induction pairs with
  | nil => exact .inr (List.mem_singleton.1 h)
  | cons pair rest ih =>
    obtain ⟨other, w⟩ := pair
    rw [set] at h
    split_ifs at h with hsame
    · obtain rfl : other = name := by simpa using hsame
      rcases List.mem_cons.1 h with rfl | h
      · exact .inr rfl
      · exact .inl (List.mem_cons_of_mem _ h)
    · rcases List.mem_cons.1 h with rfl | h
      · exact .inl List.mem_cons_self
      · exact (ih h).imp_left (List.mem_cons_of_mem _)

/-- Giving every repeated name once adds no pairs. -/
theorem ofPairs_subset (pairs : List (String × α)) : ofPairs pairs ⊆ pairs := by
  have hfold : ∀ done : List (String × α),
      pairs.foldl (fun done x => set done x.1 x.2) done ⊆ done ++ pairs := by
    induction pairs with
    | nil => simp
    | cons pair rest ih =>
      intro done x hx
      rcases List.mem_append.1 (ih _ hx) with hset | hrest
      · rcases mem_of_mem_set hset with hold | rfl
        · exact List.mem_append_left _ hold
        · exact List.mem_append_right _ List.mem_cons_self
      · exact List.mem_append_right _ (List.mem_cons_of_mem _ hrest)
  exact hfold []

theorem lookup_set (pairs : List (String × α)) (key name : String) (value : α) :
    (set pairs key value).lookup name = if name = key then some value else pairs.lookup name := by
  induction pairs with
  | nil => rw [set, lookup_cons]
  | cons pair rest ih =>
    obtain ⟨k, other⟩ := pair
    by_cases hk : k = key
    · subst hk
      simp only [set, beq_self_eq_true, if_true, lookup_cons]
      split_ifs <;> rfl
    · have hb : (k == key) = false := by simpa using hk
      simp only [set, hb, Bool.false_eq_true, if_false, lookup_cons, ih]
      split_ifs with h h' <;> simp_all

end Assoc

theorem natText_injective : Function.Injective natText := by
  intro m n h
  have hdigits : Nat.toDigits 10 m = Nat.toDigits 10 n := String.ofList_injective h
  rw [← @Nat.ofDigitChars_ten_toDigits m, hdigits, Nat.ofDigitChars_ten_toDigits]

namespace RuleTable

/-! ## Tables without conflicts -/

/-- No name is defined twice, and a claimed name is not defined. -/
structure WellFormed (t : RuleTable) : Prop where
  nodup : (t.rules.map Prod.fst).Nodup
  waiting : ∀ name ∈ t.reserved, t.find? name = none

/-- All rules of a table stand in front of another one. -/
def Extends (t t' : RuleTable) : Prop :=
  t.rules <+: t'.rules

theorem Extends.refl (t : RuleTable) : t.Extends t :=
  List.prefix_rfl

theorem Extends.trans {t t' t'' : RuleTable} (h : t.Extends t') (h' : t'.Extends t'') :
    t.Extends t'' :=
  List.IsPrefix.trans h h'

theorem Extends.find? {t t' : RuleTable} (h : t.Extends t') {name body : String}
    (hfind : t.find? name = some body) : t'.find? name = some body := by
  obtain ⟨more, hmore⟩ := h
  rw [RuleTable.find?, ← hmore, Assoc.lookup_append]
  simp [RuleTable.find?] at hfind
  simp [hfind]

theorem Extends.has {t t' : RuleTable} (h : t.Extends t') {name : String}
    (hhas : t.has name = true) : t'.has name = true := by
  obtain ⟨body, hbody⟩ := Option.isSome_iff_exists.1 hhas
  exact Option.isSome_iff_exists.2 ⟨body, h.find? hbody⟩

theorem has_of_find? {t : RuleTable} {name body : String} (h : t.find? name = some body) :
    t.has name = true :=
  Option.isSome_iff_exists.2 ⟨body, h⟩

theorem has_iff_mem {t : RuleTable} {name : String} :
    t.has name = true ↔ name ∈ t.rules.map Prod.fst :=
  Assoc.lookup_isSome_iff

theorem has_eq_false_iff {t : RuleTable} {name : String} :
    t.has name = false ↔ t.find? name = none := by
  simp [has]

theorem wellFormed_new : new.WellFormed :=
  ⟨by simp [new], by simp [new]⟩

/-! ## Numbered slots -/

theorem numbered_injective (name : String) : Function.Injective (numbered name) := by
  intro i j h
  exact natText_injective (String.append_right_inj name |>.1 h)

/-- The names that are not simply unused. -/
def takenNames (t : RuleTable) : List String :=
  t.rules.map Prod.fst ++ t.reserved

theorem leastIndex_free (t : RuleTable) (base : String) (free : Nat → Bool)
    (h : ∀ i, free i = false → numbered base i ∈ t.takenNames) :
    free (t.leastIndex free) = true := by
  unfold leastIndex
  -- more slots are tried than names are taken
  dsimp only
  cases hfind : (List.range (t.rules.length + t.reserved.length + 1)).find? free with
  | some i =>
    rw [Option.getD_some]
    exact List.find?_some hfind
  | none =>
    exfalso
    have hall : ∀ i < t.rules.length + t.reserved.length + 1, numbered base i ∈ t.takenNames := by
      intro i hi
      refine h i ?_
      simpa using List.find?_eq_none.1 hfind i (List.mem_range.2 hi)
    have hsub : ((Finset.range (t.rules.length + t.reserved.length + 1)).image (numbered base)) ⊆
        t.takenNames.toFinset := by
      intro name hname
      obtain ⟨i, hi, rfl⟩ := Finset.mem_image.1 hname
      exact List.mem_toFinset.2 (hall i (Finset.mem_range.1 hi))
    have hcard := Finset.card_le_card hsub
    rw [Finset.card_image_of_injective _ (numbered_injective base), Finset.card_range] at hcard
    have htaken := hcard.trans (List.toFinset_card_le _)
    simp only [takenNames, List.length_append, List.length_map] at htaken
    omega

theorem mem_takenNames_of_isFreeFor {t : RuleTable} {name body : String}
    (h : t.isFreeFor name body = false) : name ∈ t.takenNames := by
  by_contra hout
  simp only [takenNames, List.mem_append, not_or] at hout
  have hnone : t.find? name = none := Assoc.lookup_eq_none_iff.2 hout.1
  simp [isFreeFor, hout.2, hnone] at h

theorem mem_takenNames_of_isUnused {t : RuleTable} {name : String}
    (h : t.isUnused name = false) : name ∈ t.takenNames := by
  by_contra hout
  simp only [takenNames, List.mem_append, not_or] at hout
  have hnone : t.has name = false := has_eq_false_iff.2 (Assoc.lookup_eq_none_iff.2 hout.1)
  simp [isUnused, hout.2, hnone] at h

/-! ## Adding rules -/

/-- The slots of a requested name: the name as it can be stored, alone or with a number. -/
def IsSlot (name slot : String) : Prop :=
  slot = escapeName name ∨ ∃ i, slot = numbered (escapeName name) i

/-- What registering a rule does: the body is in `slot` already, or is put behind all rules. -/
structure Adds (t : RuleTable) (name body slot : String) (t' : RuleTable) : Prop where
  isSlot : IsSlot name slot
  rules : t'.rules = t.rules ∧ t.find? slot = some body ∨
    t'.rules = t.rules ++ [(slot, body)] ∧ t.find? slot = none
  reserved : t'.reserved = t.reserved.filter (· != slot)

theorem filter_reserved {t : RuleTable} (ht : t.WellFormed) {name body : String}
    (h : t.find? name = some body) : t.reserved = t.reserved.filter (· != name) := by
  refine (List.filter_eq_self.2 fun other hother => ?_).symm
  have hne : other ≠ name := by
    rintro rfl
    rw [ht.waiting other hother] at h
    exact absurd h (by simp)
  simpa using hne

theorem adds_put {t : RuleTable} {name body slot : String} (hslot : IsSlot name slot)
    (h : t.find? slot = none ∨ t.find? slot = some body) :
    Adds t name body slot (t.put slot body) := by
  refine ⟨hslot, ?_, rfl⟩
  rcases h with h | h
  · exact .inr ⟨Assoc.set_of_lookup_eq_none body h, h⟩
  · exact .inl ⟨Assoc.set_of_lookup_eq_some h, h⟩

theorem adds_add {t : RuleTable} (ht : t.WellFormed) (name body : String) :
    Adds t name body (t.add name body).1 (t.add name body).2 := by
  unfold add
  dsimp only
  split_ifs with hreserved
  · exact adds_put (.inl rfl) (.inl (ht.waiting _ (List.contains_iff_mem.1 hreserved)))
  · split
    · rename_i hnone
      exact adds_put (.inl rfl) (.inl hnone)
    · rename_i other hother
      split_ifs with hsame
      · obtain rfl : other = body := by simpa using hsame
        exact ⟨.inl rfl, .inl ⟨rfl, hother⟩, filter_reserved ht hother⟩
      · refine adds_put (.inr ⟨_, rfl⟩) ?_
        have hfree := leastIndex_free t (escapeName name)
          (fun i => t.isFreeFor (numbered (escapeName name) i) body)
          fun i hi => mem_takenNames_of_isFreeFor hi
        simp only [isFreeFor, Bool.and_eq_true] at hfree
        replace hfree := hfree.2
        split at hfree
        · rename_i found hfound
          obtain rfl : found = body := by simpa using hfree
          exact .inr hfound
        · rename_i hnone
          exact .inl hnone

section Adds

variable {t t' : RuleTable} {name body slot : String}

theorem Adds.extends (h : Adds t name body slot t') : t.Extends t' := by
  rcases h.rules with ⟨hr, -⟩ | ⟨hr, -⟩
  · exact ⟨[], by simp [hr]⟩
  · exact ⟨[(slot, body)], hr.symm⟩

theorem Adds.find? (h : Adds t name body slot t') : t'.find? slot = some body := by
  rcases h.rules with ⟨hr, hb⟩ | ⟨hr, hb⟩
  · rw [RuleTable.find?, hr]
    exact hb
  · rw [RuleTable.find?] at hb
    rw [RuleTable.find?, hr, Assoc.lookup_append, hb, Assoc.lookup_cons]
    simp

theorem Adds.find?_of_ne (h : Adds t name body slot t') {other : String} (hne : other ≠ slot) :
    t'.find? other = t.find? other := by
  rcases h.rules with ⟨hr, -⟩ | ⟨hr, -⟩
  · rw [RuleTable.find?, hr]
    rfl
  · rw [RuleTable.find?, hr, Assoc.lookup_append, Assoc.lookup_cons, if_neg hne]
    simp [RuleTable.find?]

theorem Adds.has_iff (h : Adds t name body slot t') {other : String} :
    t'.has other = true ↔ t.has other = true ∨ other = slot := by
  by_cases heq : other = slot
  · subst heq
    simp [has_of_find? h.find?]
  · rw [has, h.find?_of_ne heq, ← has]
    simp [heq]

theorem Adds.wellFormed (h : Adds t name body slot t') (ht : t.WellFormed) : t'.WellFormed := by
  refine ⟨?_, ?_⟩
  · rcases h.rules with ⟨hr, -⟩ | ⟨hr, hnone⟩
    · rw [hr]
      exact ht.nodup
    · rw [hr, List.map_append]
      refine List.nodup_append.2 ⟨ht.nodup, by simp, ?_⟩
      simp only [List.map_cons, List.map_nil, List.mem_singleton]
      rintro a ha b rfl rfl
      exact Assoc.lookup_eq_none_iff.1 hnone ha
  · intro other hother
    rw [h.reserved, List.mem_filter] at hother
    have hne : other ≠ slot := by simpa using hother.2
    rw [h.find?_of_ne hne]
    exact ht.waiting other hother.1

end Adds

/-! ## Claiming names -/

theorem reserve_unused (t : RuleTable) (name : String) :
    t.isUnused (t.reserve name).1 = true := by
  unfold reserve
  dsimp only
  split_ifs with hbase
  · exact hbase
  · exact leastIndex_free t (escapeName name)
      (fun i => t.isUnused (numbered (escapeName name) i))
      fun i hi => mem_takenNames_of_isUnused hi

theorem isSlot_reserve (t : RuleTable) (name : String) : IsSlot name (t.reserve name).1 := by
  unfold reserve
  dsimp only
  split_ifs with hbase
  · exact .inl rfl
  · exact .inr ⟨_, rfl⟩

theorem wellFormed_reserve {t : RuleTable} (ht : t.WellFormed) (name : String) :
    (t.reserve name).2.WellFormed := by
  refine ⟨ht.nodup, fun other hother => ?_⟩
  rcases List.mem_cons.1 hother with rfl | hother
  · have hunused := reserve_unused t name
    simp only [isUnused, Bool.and_eq_true, Bool.not_eq_true'] at hunused
    exact has_eq_false_iff.1 hunused.2
  · exact ht.waiting other hother

theorem wellFormed_release {t : RuleTable} (ht : t.WellFormed) (name : String) :
    (t.release name).WellFormed :=
  ⟨ht.nodup, fun other hother => ht.waiting other (List.mem_of_mem_filter hother)⟩

end RuleTable

end SchemaGrammar
