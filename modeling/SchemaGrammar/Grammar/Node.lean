set_option autoImplicit false

/-! # Grammars

A grammar is a list of named rules in the order of their definition; a rule's body is a tree.
Characters are code points, given as numbers because a grammar may name code points, such as
surrogates, that no text holds. -/

namespace SchemaGrammar

/-- The body of a rule. -/
inductive Node where
  | literal (text : List Nat)
  /-- One character inside the ranges, or outside them. -/
  | charClass (negated : Bool) (ranges : List (Nat × Nat))
  | rule (name : String)
  | seq (items : List Node)
  | alt (branches : List Node)
  /-- The same node several times; without `max` any number of times. -/
  | rep (node : Node) (min : Int) (max : Option Int)
  deriving Repr, Inhabited

/-- The rules by name. -/
abbrev Grammar := List (String × Node)

namespace Grammar

def find? (g : Grammar) (name : String) : Option Node :=
  g.lookup name

def has (g : Grammar) (name : String) : Bool :=
  (g.find? name).isSome

end Grammar

namespace Node

/-- Does a class hold a code point? -/
def classHolds (negated : Bool) (ranges : List (Nat × Nat)) (code : Nat) : Bool :=
  (ranges.any fun (lo, hi) => lo ≤ code && code ≤ hi) != negated

mutual

/-- The rules that a body refers to, from left to right. -/
def ruleNames : Node → List String
  | .literal _ => []
  | .charClass _ _ => []
  | .rule name => [name]
  | .seq items => ruleNamesOf items
  | .alt branches => ruleNamesOf branches
  | .rep node _ _ => ruleNames node

def ruleNamesOf : List Node → List String
  | [] => []
  | node :: rest => ruleNames node ++ ruleNamesOf rest

end

end Node

end SchemaGrammar
