import SchemaGrammar.Json.Writer
import SchemaGrammar.Proofs.Rules.Table

set_option autoImplicit false

/-! # Values that can be written

A value can be written if the values in it can. -/

namespace SchemaGrammar

namespace Json

variable {v : Json} {fields : Fields} {key : String}

theorem itemsWritable_iff {items : List Json} :
    itemsWritable items = true ↔ ∀ v ∈ items, v.isWritable = true := by
  induction items with
  | nil => simp [itemsWritable]
  | cons v rest ih => rw [itemsWritable, Bool.and_eq_true, ih, List.forall_mem_cons]

theorem fieldsWritable_iff :
    fieldsWritable fields = true ↔ ∀ x ∈ fields, x.2.isWritable = true := by
  induction fields with
  | nil => simp [fieldsWritable]
  | cons x rest ih => rw [fieldsWritable, Bool.and_eq_true, ih, List.forall_mem_cons]

theorem isWritable_of_get? (h : (Json.obj fields).isWritable = true)
    (hget : Fields.get? fields key = some v) : v.isWritable = true :=
  fieldsWritable_iff.1 h _ (Assoc.mem_of_lookup hget)

end Json

end SchemaGrammar
