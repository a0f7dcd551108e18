import SchemaGrammar.Json.Value
import SchemaGrammar.Proofs.Rules.Table

set_option autoImplicit false

/-! # Sizes of values

The parts of a value are no larger than the value. -/

namespace SchemaGrammar

namespace Json

variable {v w : Json} {fields : Fields} {key : String}

theorem size_pos (v : Json) : 0 < v.size := by
  cases v <;> simp [size, Nat.add_comm 1]

theorem size_le_of_mem_items {items : List Json} (h : v ∈ items) : v.size ≤ sizeOfItems items := by
  induction items with
  | nil => cases h
  | cons w rest ih =>
    rw [sizeOfItems]
    rcases List.mem_cons.1 h with rfl | hrest
    · exact Nat.le_add_right _ _
    · exact (ih hrest).trans (Nat.le_add_left _ _)

theorem size_le_of_mem_fields (h : (key, v) ∈ fields) : v.size ≤ sizeOfFields fields := by
  induction fields with
  | nil => cases h
  | cons field rest ih =>
    obtain ⟨name, w⟩ := field
    rw [sizeOfFields]
    rcases List.mem_cons.1 h with heq | hrest
    · obtain ⟨-, rfl⟩ := Prod.mk.inj heq
      exact Nat.le_add_right _ _
    · exact (ih hrest).trans (Nat.le_add_left _ _)

theorem size_le_of_get? (h : Fields.get? fields key = some v) : v.size ≤ sizeOfFields fields :=
  size_le_of_mem_fields (Assoc.mem_of_lookup h)

theorem length_le_sizeOfItems (items : List Json) : items.length ≤ sizeOfItems items := by
  induction items with
  | nil => exact Nat.le_refl 0
  | cons v rest ih =>
    have hv := size_pos v
    rw [sizeOfItems, List.length_cons]
    omega

theorem size_le_of_child? {step : Step} (h : v.child? step = some w) : w.size ≤ v.size := by
  cases v with
  | obj fields =>
    cases step with
    | key name =>
      rw [size]
      exact (size_le_of_get? h).trans (Nat.le_add_left _ _)
    | index i => cases h
  | arr items =>
    cases step with
    | key name => cases h
    | index i =>
      rw [size]
      exact (size_le_of_mem_items (List.mem_of_getElem? h)).trans (Nat.le_add_left _ _)
  | _ => cases step <;> cases h

end Json

end SchemaGrammar
