import Mathlib.Order.Bounds.Basic
import SchemaGrammar.Proofs.Number.Value
import SchemaGrammar.Proofs.Schema.Bounds

set_option autoImplicit false

/-! # What the bounds of an integer come to

Four keywords bound an integer, from below or from above, with the bound itself or without it. They
come to at most two integers: the integers between these are exactly the ones that satisfy all
keywords (`exists_boundsOf`). How far an open side goes is settled by the least or the greatest of
them (`isInRange_iff`). -/

namespace SchemaGrammar

namespace Schema

open Json (Fields)

/-! ## Keywords -/

/-- A value that bounds an integer: a finite number, which a double can hold. -/
structure IsBound (v : Json) : Prop where
  proper : IsProperBound v
  number : ∃ x, v = .num x ∧ x.isFinite = true ∧ x.fitsDouble = true

/-- The keywords that bound an integer from below. -/
def lowerKeys : List String :=
  ["minimum", "exclusiveMinimum"]

/-- The keywords that bound an integer from above. -/
def upperKeys : List String :=
  ["maximum", "exclusiveMaximum"]

/-- An integer on the right side of a bound, by the exact value of the bound. -/
def Meets (key : String) (bound : ℚ) (n : Int) : Prop :=
  if key = "minimum" then bound ≤ n
  else if key = "exclusiveMinimum" then bound < n
  else if key = "maximum" then n ≤ bound
  else n < bound

/-- An integer on the right side of all bounds that a schema gives. -/
def SatisfiesBounds (fields : Fields) (n : Int) : Prop :=
  ∀ key ∈ boundKeys, ∀ x, Fields.get? fields key = some (.num x) → Meets key x.rational n

/-- Does the schema give one of the keywords? -/
def givesOne (fields : Fields) (keys : List String) : Bool :=
  keys.any (Fields.has fields)

/-! ## One keyword at a time -/

/-- An integer between the bounds found so far. -/
def Bounds.Holds (b : Bounds) (n : Int) : Prop :=
  (∀ low ∈ b.low, low ≤ n) ∧ ∀ high ∈ b.high, n ≤ high

theorem Bounds.holds_raise (b : Bounds) (k n : Int) : (b.raise k).Holds n ↔ b.Holds n ∧ k ≤ n := by
  obtain ⟨low, high⟩ := b
  cases low with
  | none => simp [Bounds.Holds, Bounds.raise, and_comm]
  | some m => simp [Bounds.Holds, Bounds.raise, and_right_comm]

theorem Bounds.holds_lower (b : Bounds) (k n : Int) : (b.lower k).Holds n ↔ b.Holds n ∧ n ≤ k := by
  obtain ⟨low, high⟩ := b
  cases high with
  | none => simp [Bounds.Holds, Bounds.lower]
  | some m => simp [Bounds.Holds, Bounds.lower, and_assoc]

/-- Without the bound itself, an integer is at least one above it. -/
theorem Bounds.holds_raise_succ (b : Bounds) (k n : Int) :
    (b.raise (k + 1)).Holds n ↔ b.Holds n ∧ k < n := by
  rw [holds_raise, Int.add_one_le_iff]

theorem Bounds.holds_lower_pred (b : Bounds) (k n : Int) :
    (b.lower (k - 1)).Holds n ↔ b.Holds n ∧ n < k := by
  rw [holds_lower, Int.le_sub_one_iff]

section Step

variable {fields : Fields} {key : String}

theorem boundValue_of_isBound {v : Json} (h : IsBound v) (schema : Json) (key : String) :
    ∃ x, v = .num x ∧ x.isFinite = true ∧ boundValue schema key v = .ok x := by
  obtain ⟨x, rfl, hfinite, hfits⟩ := h.number
  exact ⟨x, rfl, hfinite, by simp [boundValue, hfinite, hfits]⟩

/-- One keyword: the integers that are left are those on its side, and it closes that side. -/
structure Narrows (fields : Fields) (keys : List String) (b b' : Bounds) : Prop where
  holds : ∀ n, b'.Holds n ↔ b.Holds n ∧ ∀ key ∈ keys, ∀ x,
    Fields.get? fields key = some (.num x) → Meets key x.rational n
  low : b'.low.isSome = (b.low.isSome || keys.any fun key =>
    lowerKeys.contains key && Fields.has fields key)
  high : b'.high.isSome = (b.high.isSome || keys.any fun key =>
    upperKeys.contains key && Fields.has fields key)

theorem exists_addBound (schema : Json) (b : Bounds) (hkey : key ∈ boundKeys)
    (hbound : ∀ v, Fields.get? fields key = some v → IsBound v) :
    ∃ b', addBound schema fields b key = .ok b' ∧ Narrows fields [key] b b' := by
  unfold addBound
  cases hget : Fields.get? fields key with
  | none => exact ⟨b, rfl, by simp [hget], by simp [Fields.has, hget], by simp [Fields.has, hget]⟩
  | some v =>
    obtain ⟨x, rfl, hfinite, hvalue⟩ := boundValue_of_isBound (hbound v hget) schema key
    have hhas : Fields.has fields key = true := by simp [Fields.has, hget]
    dsimp only
    rw [hvalue]
    refine ⟨_, rfl, ?_⟩
    simp only [Number.floor?_eq hfinite, Number.ceil?_eq hfinite, Option.getD_some]
    -- a bound that is no integer moves to the next one inside
    have hkeys : key = "minimum" ∨ key = "exclusiveMinimum" ∨ key = "maximum" ∨
        key = "exclusiveMaximum" := by simpa [boundKeys] using hkey
    rcases hkeys with rfl | rfl | rfl | rfl
    · refine ⟨fun n => ?_, by simp [Bounds.raise, hhas, lowerKeys],
        by simp [Bounds.raise, upperKeys]⟩
      simp [Bounds.holds_raise, hget, Meets, Int.ceil_le]
    · refine ⟨fun n => ?_, by simp [Bounds.raise, hhas, lowerKeys],
        by simp [Bounds.raise, upperKeys]⟩
      simp [Bounds.holds_raise_succ, hget, Meets, Int.floor_lt]
    · refine ⟨fun n => ?_, by simp [Bounds.lower, lowerKeys],
        by simp [Bounds.lower, hhas, upperKeys]⟩
      simp [Bounds.holds_lower, hget, Meets, Int.le_floor]
    · refine ⟨fun n => ?_, by simp [Bounds.lower, lowerKeys],
        by simp [Bounds.lower, hhas, upperKeys]⟩
      simp [Bounds.holds_lower_pred, hget, Meets, Int.lt_ceil]

theorem exists_foldlM (schema : Json) (b : Bounds) {keys : List String}
    (hkeys : ∀ key ∈ keys, key ∈ boundKeys)
    (hbounds : ∀ key ∈ keys, ∀ v, Fields.get? fields key = some v → IsBound v) :
    ∃ b', keys.foldlM (addBound schema fields) b = .ok b' ∧ Narrows fields keys b b' := by
  induction keys generalizing b with
  | nil => exact ⟨b, rfl, by simp, by simp, by simp⟩
  | cons key rest ih =>
    obtain ⟨b₁, hfirst, hnarrows⟩ := exists_addBound schema b
      (hkeys key (by simp)) (hbounds key (by simp))
    obtain ⟨b', hrest, hmore⟩ := ih b₁
      (fun other hother => hkeys other (List.mem_cons_of_mem _ hother))
      fun other hother => hbounds other (List.mem_cons_of_mem _ hother)
    refine ⟨b', Work.except_bind_eq_ok.2 ⟨b₁, hfirst, hrest⟩, fun n => ?_, ?_, ?_⟩
    · rw [hmore.holds, hnarrows.holds, List.forall_mem_singleton, List.forall_mem_cons, and_assoc]
    · rw [hmore.low, hnarrows.low]
      simp [Bool.or_assoc]
    · rw [hmore.high, hnarrows.high]
      simp [Bool.or_assoc]

end Step

/-! ## All keywords -/

/-- An integer with no more digits than the ceiling allows. Only an open side has a ceiling, and it
    is no lower than the least or the greatest integer that satisfies the bounds. -/
def IsWithinCeiling (ceiling : Nat) (fields : Fields) (n : Int) : Prop :=
  (givesOne fields upperKeys = false → 0 ≤ n → IntRange.width n ≤ ceiling ∨
    ∃ least, IsLeast {k | SatisfiesBounds fields k} least ∧ 0 ≤ least ∧
      IntRange.width n ≤ IntRange.width least) ∧
  (givesOne fields lowerKeys = false → n < 0 → IntRange.width n ≤ ceiling ∨
    ∃ greatest, IsGreatest {k | SatisfiesBounds fields k} greatest ∧ greatest < 0 ∧
      IntRange.width n ≤ IntRange.width greatest)

/-- The bounds that the keywords of a schema come to. -/
structure ComesTo (fields : Fields) (b : Bounds) : Prop where
  holds : ∀ n, b.Holds n ↔ SatisfiesBounds fields n
  low : b.low.isSome = givesOne fields lowerKeys
  high : b.high.isSome = givesOne fields upperKeys

section All

variable {fields : Fields} {b : Bounds}

/-- **Bounds are normalised exactly.** -/
theorem exists_boundsOf (h : ∀ key ∈ boundKeys, ∀ v, Fields.get? fields key = some v → IsBound v) :
    ∃ b, boundsOf fields = .ok b ∧ ComesTo fields b := by
  obtain ⟨b, hrun, hnarrows⟩ := exists_foldlM (.obj fields) ⟨none, none⟩
    (fun _ hkey => hkey) h
  refine ⟨b, hrun, fun n => ?_, ?_, ?_⟩
  · rw [hnarrows.holds, SatisfiesBounds]
    simp [Bounds.Holds]
  · rw [hnarrows.low]
    simp [givesOne, boundKeys, lowerKeys]
  · rw [hnarrows.high]
    simp [givesOne, boundKeys, upperKeys]

theorem isBound_of_addBound {schema : Json} {b b' : Bounds} {key : String} {v : Json}
    (hproper : IsProperBound v) (hget : Fields.get? fields key = some v)
    (h : addBound schema fields b key = .ok b') : IsBound v := by
  unfold addBound at h
  rw [hget] at h
  obtain ⟨x, hvalue, -⟩ := Work.except_bind_eq_ok.1 h
  unfold boundValue at hvalue
  split at hvalue
  · split_ifs at hvalue with hfits hfinite
    exact ⟨hproper, _, rfl, hfinite, by simpa using hfits⟩
  · cases hvalue

/-- Where bounds come to something, they are bounds. -/
theorem isBound_of_boundsOf (hproper : ∀ key ∈ boundKeys, IsProperBound (keyword fields key))
    (h : boundsOf fields = .ok b) :
    ∀ key ∈ boundKeys, ∀ v, Fields.get? fields key = some v → IsBound v := by
  have hall {keys : List String} {b b' : Bounds}
      (hkeys : ∀ key ∈ keys, IsProperBound (keyword fields key))
      (h : keys.foldlM (addBound (.obj fields) fields) b = .ok b') :
      ∀ key ∈ keys, ∀ v, Fields.get? fields key = some v → IsBound v := by
    induction keys generalizing b with
    | nil => simp
    | cons key rest ih =>
      obtain ⟨b₁, hfirst, hrest⟩ := Work.except_bind_eq_ok.1 h
      refine List.forall_mem_cons.2 ⟨fun v hget => ?_, ?_⟩
      · have hproper := hkeys key (by simp)
        rw [keyword, hget, Option.getD_some] at hproper
        exact isBound_of_addBound hproper hget hfirst
      · exact ih (fun other hother => hkeys other (List.mem_cons_of_mem _ hother)) hrest
  exact hall hproper h

/-- Bounds are out of order where both sides have one and no integer satisfies them all. -/
theorem ComesTo.unsatisfiable_iff (h : ComesTo fields b) :
    (∃ low ∈ b.low, ∃ high ∈ b.high, high < low) ↔
      givesOne fields lowerKeys = true ∧ givesOne fields upperKeys = true ∧
        ∀ n, ¬ SatisfiesBounds fields n := by
  have hholds (n : Int) := h.holds n
  rw [← h.low, ← h.high]
  obtain ⟨low, high⟩ := b
  cases low with
  | none => simp
  | some low =>
    cases high with
    | none => simp
    | some high =>
      simp only [← hholds, Bounds.Holds, Option.mem_some_iff, exists_eq_left', forall_eq',
        Option.isSome_some, true_and, not_and, not_le]
      exact ⟨fun hlt n hn => hlt.trans_le hn, fun hnone => hnone low le_rfl⟩

section Open

variable {end_ : Int} (h : ComesTo fields b)

include h

theorem ComesTo.isLeast_iff (hlow : b.low = some end_) (hhigh : b.high = none) (m : Int) :
    IsLeast {k | SatisfiesBounds fields k} m ↔ m = end_ := by
  have hleast : IsLeast {k | SatisfiesBounds fields k} end_ := by
    simp only [← h.holds, Bounds.Holds, hlow, hhigh]
    simp [IsLeast, mem_lowerBounds]
  exact ⟨fun hm => hm.unique hleast, fun hm => hm ▸ hleast⟩

theorem ComesTo.isGreatest_iff (hlow : b.low = none) (hhigh : b.high = some end_) (m : Int) :
    IsGreatest {k | SatisfiesBounds fields k} m ↔ m = end_ := by
  have hgreatest : IsGreatest {k | SatisfiesBounds fields k} end_ := by
    simp only [← h.holds, Bounds.Holds, hlow, hhigh]
    simp [IsGreatest, mem_upperBounds]
  exact ⟨fun hm => hm.unique hgreatest, fun hm => hm ▸ hgreatest⟩

end Open

/-- The range between the bounds has the integers that satisfy them all, as far as the ceiling of
    digits goes. -/
theorem ComesTo.isInRange_iff (h : ComesTo fields b) {ceiling : Nat} (hceiling : 1 ≤ ceiling)
    (hgiven : b.low.isSome = true ∨ b.high.isSome = true) (n : Int) :
    IntRange.IsInRange ceiling b.low b.high n ↔
      SatisfiesBounds fields n ∧ IsWithinCeiling ceiling fields n := by
  have hzero : IntRange.width 0 = 1 := rfl
  rw [← h.holds, IsWithinCeiling, ← h.low, ← h.high, Bounds.Holds]
  cases hlow : b.low with
  | none =>
    cases hhigh : b.high with
    | none => simp [hlow, hhigh] at hgiven
    | some high =>
      simp only [h.isGreatest_iff hlow hhigh]
      simp only [IntRange.IsInRange, Option.isSome_none, Option.isSome_some, Option.mem_some_iff,
        forall_eq']
      rcases Int.lt_or_le high 0 with hsign | hsign
      · simp [hsign, not_le.2 hsign, imp_iff_not_or, not_lt]
      · simp [not_lt.2 hsign, hsign, imp_iff_not_or, not_lt]
  | some low =>
    cases hhigh : b.high with
    | none =>
      simp only [h.isLeast_iff hlow hhigh]
      simp only [IntRange.IsInRange, Option.isSome_none, Option.isSome_some, Option.mem_some_iff,
        forall_eq']
      rcases Int.lt_or_le low 0 with hsign | hsign
      · -- zero has one digit, which is within every ceiling
        simp [max_eq_right hsign.le, hzero, hceiling, not_le.2 hsign, imp_iff_not_or, not_le]
      · simp [Int.toNat_of_nonneg hsign, hsign, imp_iff_not_or, not_le]
    | some high => simp [IntRange.IsInRange]

end All

end Schema

end SchemaGrammar
