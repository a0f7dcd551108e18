import SchemaGrammar.Proofs.Schema.Objects
import SchemaGrammar.Proofs.Schema.References

set_option autoImplicit false

/-! # Compiling schemas of the core fragment is exact

One step compiles a schema exactly if the schemas inside are compiled exactly (`isExact_visitWith`);
the recursion goes from depth to depth (`isExact_visit`). -/

namespace SchemaGrammar

namespace Schema

open RuleTable (HasPlainDigits)

variable {options : Options} {document : Json} {plain : Prop}

/-- Whatever the shape of a schema is, its builder is exact. -/
theorem isExact_visitWith {visit : Visit} (hcore : Core document) (hceiling : HasCeiling options)
    (hkeys : plain → HasReadableKeys document) (hvisit : IsExact options document plain visit) :
    IsExact options document plain (visitWith visit options) := by
  intro busy S hint s s' name hrun hs hreach hhint hfree
  have hplain := hcore.plain S hreach
  cases S with
  | obj fields =>
    unfold visitWith at hrun
    cases hshape : shape fields with
    | ref =>
      simp only [hshape] at hrun
      exact visitRef_compiled hvisit hcore hs hhint hreach hfree hshape hrun
    | union =>
      simp only [hshape] at hrun
      exact visitUnion_compiled hvisit hs hhint hreach hfree hshape hplain hrun
    | typeUnion =>
      simp only [hshape] at hrun
      exact visitTypeUnion_compiled hvisit hs hhint hreach hfree hshape hplain hrun
    | const =>
      simp only [hshape] at hrun
      exact visitConst_compiled hs hhint hshape hrun
    | enum =>
      simp only [hshape] at hrun
      exact visitEnum_compiled hs hhint hshape hplain hrun
    | object =>
      simp only [hshape] at hrun
      exact visitObject_compiled hvisit hs hhint hkeys hreach hfree hshape hrun
    | tuple =>
      simp only [hshape] at hrun
      exact visitTuple_compiled hvisit hs hhint hreach hfree hshape hrun
    | array =>
      simp only [hshape] at hrun
      exact visitArray_compiled hvisit hs hhint hreach hfree hshape hplain hrun
    | uuid =>
      simp only [hshape] at hrun
      exact visitUuid_compiled hs hshape hrun
    | formatString =>
      simp only [hshape] at hrun
      exact visitFormatString_compiled hs hhint hshape hrun
    | boundedString =>
      simp only [hshape] at hrun
      exact visitBoundedString_compiled hs hhint hshape hplain hrun
    | intRange =>
      simp only [hshape] at hrun
      exact visitIntRange_compiled hs hhint hceiling hshape hrun
    | genericObject =>
      simp only [hshape] at hrun
      exact visitGenericObject_compiled hs hhint hshape hrun
    | primitive =>
      simp only [hshape] at hrun
      exact visitPrimitive_compiled hs hshape hrun
    | allOf =>
      rw [IsPlain, hshape] at hplain
      exact hplain.elim
    | pattern =>
      rw [IsPlain, hshape] at hplain
      exact hplain.elim
    | unrecognized =>
      simp only [hshape] at hrun
      exact absurd hrun Work.throw_ne_ok
  | _ => exact absurd hrun Work.throw_ne_ok

/-- **Compiling a schema of the core fragment is exact**, however deep schemas may nest. -/
theorem isExact_visit (hcore : Core document) (hceiling : HasCeiling options)
    (hkeys : plain → HasReadableKeys document) (depth : Nat) :
    IsExact options document plain (visit options depth) := by
  induction depth with
  | zero => exact fun _ _ _ _ _ _ hrun => absurd hrun Work.throw_ne_ok
  | succ depth ih => exact isExact_visitWith hcore hceiling hkeys ih

end Schema

end SchemaGrammar
