import Mathlib.Computability.Language
import SchemaGrammar.Grammar.Node

set_option autoImplicit false

/-! # The texts that a grammar derives

The meaning of a grammar, apart from any way to recognise it: `Derives g node text` is the least
relation closed under what each kind of node says. A repetition is a row of so many copies of its
node, so rows are the only place where texts are put together.

`language` gives the same as a language of texts, with an equation for each kind of node. -/

namespace SchemaGrammar

namespace Grammar

/-- A node derives a text. -/
inductive Derives (g : Grammar) : Node → List Char → Prop where
  | literal (text : List Char) : Derives g (.literal (text.map Char.toNat)) text
  | charClass {negated : Bool} {ranges : List (Nat × Nat)} {c : Char}
      (holds : Node.classHolds negated ranges c.toNat = true) :
      Derives g (.charClass negated ranges) [c]
  | rule {name : String} {body : Node} {text : List Char}
      (defined : g.find? name = some body) (derives : Derives g body text) :
      Derives g (.rule name) text
  | nil : Derives g (.seq []) []
  | cons {node : Node} {rest : List Node} {text more : List Char}
      (first : Derives g node text) (others : Derives g (.seq rest) more) :
      Derives g (.seq (node :: rest)) (text ++ more)
  | alt {node : Node} {branches : List Node} {text : List Char}
      (mem : node ∈ branches) (derives : Derives g node text) : Derives g (.alt branches) text
  | rep {node : Node} {min : Int} {max : Option Int} {text : List Char} (count : Nat)
      (least : min ≤ count) (most : ∀ n ∈ max, count ≤ n)
      (derives : Derives g (.seq (List.replicate count node)) text) :
      Derives g (.rep node min max) text

variable {g : Grammar}

/-! ## What each kind of node derives -/

theorem derives_literal_iff {codes : List Nat} {text : List Char} :
    Derives g (.literal codes) text ↔ text.map Char.toNat = codes := by
  constructor
  · rintro ⟨⟩
    rfl
  · rintro rfl
    exact .literal text

theorem derives_charClass_iff {negated : Bool} {ranges : List (Nat × Nat)}
    {text : List Char} :
    Derives g (.charClass negated ranges) text ↔
      ∃ c : Char, text = [c] ∧ Node.classHolds negated ranges c.toNat = true := by
  constructor
  · rintro ⟨⟩
    exact ⟨_, rfl, ‹_›⟩
  · rintro ⟨c, rfl, h⟩
    exact .charClass h

theorem derives_rule_iff {name : String} {text : List Char} :
    Derives g (.rule name) text ↔ ∃ body, g.find? name = some body ∧ Derives g body text := by
  constructor
  · rintro ⟨⟩
    exact ⟨_, ‹_›, ‹_›⟩
  · rintro ⟨body, h, hb⟩
    exact .rule h hb

theorem derives_seq_nil_iff {text : List Char} : Derives g (.seq []) text ↔ text = [] := by
  constructor
  · rintro ⟨⟩
    rfl
  · rintro rfl
    exact .nil

theorem derives_seq_cons_iff {node : Node} {rest : List Node} {text : List Char} :
    Derives g (.seq (node :: rest)) text ↔
      ∃ front back, text = front ++ back ∧ Derives g node front ∧ Derives g (.seq rest) back := by
  constructor
  · rintro ⟨⟩
    exact ⟨_, _, rfl, ‹_›, ‹_›⟩
  · rintro ⟨front, back, rfl, hf, hb⟩
    exact .cons hf hb

theorem derives_alt_iff {branches : List Node} {text : List Char} :
    Derives g (.alt branches) text ↔ ∃ node ∈ branches, Derives g node text := by
  constructor
  · rintro ⟨⟩
    exact ⟨_, ‹_›, ‹_›⟩
  · rintro ⟨node, h, hn⟩
    exact .alt h hn

theorem derives_rep_iff {node : Node} {min : Int} {max : Option Int} {text : List Char} :
    Derives g (.rep node min max) text ↔
      ∃ count : Nat, min ≤ count ∧ (∀ n ∈ max, count ≤ n) ∧
        Derives g (.seq (List.replicate count node)) text := by
  constructor
  · rintro ⟨⟩
    exact ⟨_, ‹_›, ‹_›, ‹_›⟩
  · rintro ⟨count, hl, hm, hd⟩
    exact .rep count hl hm hd

/-! ## As languages -/

/-- The texts that a node derives. -/
def language (g : Grammar) (node : Node) : Language Char :=
  {text | Derives g node text}

theorem mem_language {node : Node} {text : List Char} :
    text ∈ g.language node ↔ Derives g node text :=
  Iff.rfl

end Grammar

end SchemaGrammar
