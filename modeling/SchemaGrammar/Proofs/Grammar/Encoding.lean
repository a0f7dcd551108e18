import SchemaGrammar.Proofs.Grammar.Phrases
import SchemaGrammar.Proofs.Rules.Exclusion
import SchemaGrammar.Proofs.Rules.Verdicts

set_option autoImplicit false

/-! # What is written is read back

Texts and sets of characters are written into a grammar as literals and classes, each with escapes
of its own, and the reader has a third table of them. Still, reading undoes writing
(`readsBack_encoders`): an item is one token, which ends where the item ends whatever stands behind
it, and no two characters of it melt into an escape, a range or a sign of negation. -/

namespace SchemaGrammar

namespace Grammar

/-! ## Items -/

/-- A text is read as one item: wherever it stands and whatever follows, one token takes up just
    this text, and as the body of a rule it is the node. -/
structure ReadsBack (text : String) (t : Token) (node : Node) : Prop where
  token : ∃ c cs, text.toList = c :: cs ∧ ∀ offset rest,
    token c ⟨offset, text.toList ++ rest⟩ = (t, ⟨offset + text.length, rest⟩)
  body : ofText ("root ::= " ++ text) = .ok [("root", node)]

/-- The token of a written item and its node. -/
theorem readsBack_of_written {text : String} {c : Char} {cs : List Char} {t : Token} {node : Node}
    (htext : text.toList = c :: cs) (hwritten : Written (fun _ => False) (.item node) (c :: cs))
    (htoken : ∀ offset rest, Grammar.token c ⟨offset, c :: cs ++ rest⟩ =
      (t, ⟨offset + (c :: cs).length, rest⟩)) : ReadsBack text t node := by
  refine ⟨⟨c, cs, htext, fun offset rest => ?_⟩, ?_⟩
  · rw [← String.length_toList, htext]
    exact htoken offset rest
  · exact ofText_alone (.single (htext ▸ hwritten))

/-! ## Literals -/

theorem readsBack_literalText (s : String) :
    ReadsBack (literalText s) (.literal (s.toList.map Char.toNat))
      (.literal (s.toList.map Char.toNat)) :=
  readsBack_of_written String.toList_ofList (.literal (quoted_literalText s.toList))
    fun offset _ => token_literal offset (quoted_literalText s.toList)

/-! ## Classes -/

/-- The class of some characters, or of all but these. -/
def classOf (negated : Bool) (cs : List Char) : String :=
  (if negated then "[^" else "[") ++ Exclusion.classText cs ++ "]"

theorem readsBack_classOf (negated : Bool) (cs : List Char) :
    ReadsBack (classOf negated cs) (.charClass negated (cs.map fun c => (c.toNat, c.toNat)))
      (.charClass negated (cs.map fun c => (c.toNat, c.toNat))) := by
  have hinside := bracketed_classChars cs
  have hplain := head_classChars cs
  cases negated with
  | false =>
    refine readsBack_of_written ?_ (.charClass hinside hplain)
      fun offset _ => token_charClass offset hinside hplain
    simp [classOf, Exclusion.classText]
  | true =>
    refine readsBack_of_written ?_ (.exceptClass hinside)
      fun offset _ => token_exceptClass offset hinside
    simp [classOf, Exclusion.classText]

/-- **Reading undoes writing.** A text written as a literal is read as just this text, and
    characters written as a class are read as a class that has just these characters, or just the
    others. -/
theorem readsBack_encoders :
    (∀ s : String, ReadsBack (literalText s) (.literal (s.toList.map Char.toNat))
      (.literal (s.toList.map Char.toNat))) ∧
    ∀ (negated : Bool) (cs : List Char), ∃ ranges,
      ReadsBack (classOf negated cs) (.charClass negated ranges) (.charClass negated ranges) ∧
        ∀ code, Node.classHolds negated ranges code =
          ((cs.map Char.toNat).contains code != negated) :=
  ⟨readsBack_literalText, fun negated cs =>
    ⟨_, readsBack_classOf negated cs, classHolds_chars negated cs⟩⟩

end Grammar

end SchemaGrammar
