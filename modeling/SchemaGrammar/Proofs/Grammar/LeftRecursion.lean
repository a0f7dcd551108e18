import Mathlib.Logic.Relation
import SchemaGrammar.Proofs.Grammar.Derivation

set_option autoImplicit false

/-! # Natural counts and left recursion

What a recogniser asks of a grammar: that no count is negative, and that no rule comes back to
itself before a character is taken. -/

namespace SchemaGrammar

namespace Node

theorem ruleNamesOf_eq (nodes : List Node) : ruleNamesOf nodes = nodes.flatMap ruleNames := by
  induction nodes with
  | nil => rfl
  | cons node rest ih => rw [ruleNamesOf, ih, List.flatMap_cons]

mutual

/-- Are all counts in a body natural numbers? -/
def hasNaturalCounts : Node → Bool
  | .literal _ => true
  | .charClass _ _ => true
  | .rule _ => true
  | .seq items => haveNaturalCounts items
  | .alt branches => haveNaturalCounts branches
  | .rep node min max => 0 ≤ min && max.all (0 ≤ ·) && hasNaturalCounts node

def haveNaturalCounts : List Node → Bool
  | [] => true
  | node :: rest => hasNaturalCounts node && haveNaturalCounts rest

end

end Node

namespace Grammar

/-- Are all counts in a grammar natural numbers? -/
def hasNaturalCounts (g : Grammar) : Bool :=
  g.all fun (_, body) => body.hasNaturalCounts

/-- A match of the node may start with a match of the rule: all that stands before it can be
    the empty text. -/
inductive Leads (g : Grammar) : Node → String → Prop where
  | rule (name : String) : Leads g (.rule name) name
  | first {node : Node} {rest : List Node} {name : String} (h : Leads g node name) :
      Leads g (.seq (node :: rest)) name
  | skip {node : Node} {rest : List Node} {name : String} (empty : Derives g node [])
      (h : Leads g (.seq rest) name) : Leads g (.seq (node :: rest)) name
  | alt {node : Node} {branches : List Node} {name : String} (mem : node ∈ branches)
      (h : Leads g node name) : Leads g (.alt branches) name
  | rep {node : Node} {min : Int} {max : Option Int} {name : String} (some : ∀ n ∈ max, 0 < n)
      (h : Leads g node name) : Leads g (.rep node min max) name

/-- The body of the one rule may start with the other. -/
def StartsWith (g : Grammar) (a b : String) : Prop :=
  ∃ body, g.find? a = some body ∧ Leads g body b

/-- Some rule comes back to itself at the same offset. -/
def LeftRecursive (g : Grammar) : Prop :=
  ∃ name, Relation.TransGen (StartsWith g) name name

/-- A grammar whose rules start only with rules of a lower rank is not left recursive. -/
theorem not_leftRecursive_of_rank {g : Grammar} (rank : String → Nat)
    (h : ∀ a b, StartsWith g a b → rank b < rank a) : ¬ LeftRecursive g := by
  rintro ⟨name, hloop⟩
  have hlt : ∀ a b, Relation.TransGen (StartsWith g) a b → rank b < rank a := by
    intro a b hab
    induction hab with
    | single hab => exact h _ _ hab
    | tail _ hbc ih => exact (h _ _ hbc).trans ih
  exact lt_irrefl _ (hlt name name hloop)

end Grammar

/-! ## Rules to start with -/

namespace Node

mutual

/-- May a body derive the empty text? Rules are taken to do so. -/
def mayBeEmpty : Node → Bool
  | .literal codes => codes.isEmpty
  | .charClass _ _ => false
  | .rule _ => true
  | .seq items => allMayBeEmpty items
  | .alt branches => someMayBeEmpty branches
  | .rep node min _ => min ≤ 0 || mayBeEmpty node

def allMayBeEmpty : List Node → Bool
  | [] => true
  | node :: rest => mayBeEmpty node && allMayBeEmpty rest

def someMayBeEmpty : List Node → Bool
  | [] => false
  | node :: rest => mayBeEmpty node || someMayBeEmpty rest

end

mutual

/-- The rules that a match of a body may start with. -/
def leading : Node → List String
  | .literal _ => []
  | .charClass _ _ => []
  | .rule name => [name]
  | .seq items => leadingOfRow items
  | .alt branches => leadingOfBranches branches
  | .rep node _ _ => leading node

def leadingOfRow : List Node → List String
  | [] => []
  | node :: rest => leading node ++ if mayBeEmpty node then leadingOfRow rest else []

def leadingOfBranches : List Node → List String
  | [] => []
  | node :: rest => leading node ++ leadingOfBranches rest

end

theorem someMayBeEmpty_of_mem {node : Node} {branches : List Node} (hmem : node ∈ branches)
    (h : node.mayBeEmpty = true) : someMayBeEmpty branches = true := by
  induction branches with
  | nil => simp at hmem
  | cons first rest ih =>
    rcases List.mem_cons.1 hmem with rfl | hmem
    · simp [someMayBeEmpty, h]
    · simp [someMayBeEmpty, ih hmem]

theorem mem_leadingOfBranches {node : Node} {branches : List Node} {name : String}
    (hmem : node ∈ branches) (h : name ∈ node.leading) : name ∈ leadingOfBranches branches := by
  induction branches with
  | nil => simp at hmem
  | cons first rest ih =>
    rw [leadingOfBranches, List.mem_append]
    rcases List.mem_cons.1 hmem with rfl | hmem
    · exact .inl h
    · exact .inr (ih hmem)

end Node

namespace Grammar

theorem mayBeEmpty_of_derives {g : Grammar} {node : Node} {text : List Char}
    (h : Derives g node text) (hempty : text = []) : node.mayBeEmpty = true := by
  induction h with
  | literal text => simp [Node.mayBeEmpty, hempty]
  | charClass _ => simp at hempty
  | rule _ _ _ => rfl
  | nil => rfl
  | cons _ _ ih ih' =>
    obtain ⟨hfirst, hothers⟩ := List.append_eq_nil_iff.1 hempty
    have hrest := ih' hothers
    rw [Node.mayBeEmpty] at hrest ⊢
    simp [Node.allMayBeEmpty, ih hfirst, hrest]
  | alt mem _ ih => exact Node.someMayBeEmpty_of_mem mem (ih hempty)
  | @rep node min max text count least _ _ ih =>
    have hrow := ih hempty
    cases count with
    | zero => simp [Node.mayBeEmpty, show min ≤ 0 from least]
    | succ count =>
      rw [List.replicate_succ, Node.mayBeEmpty, Node.allMayBeEmpty, Bool.and_eq_true] at hrow
      simp [Node.mayBeEmpty, hrow.1]

theorem mem_leading_of_leads {g : Grammar} {node : Node} {name : String} (h : Leads g node name) :
    name ∈ node.leading := by
  induction h with
  | rule name => simp [Node.leading]
  | first _ ih =>
    rw [Node.leading, Node.leadingOfRow, List.mem_append]
    exact .inl ih
  | skip empty _ ih =>
    rw [Node.leading, Node.leadingOfRow, mayBeEmpty_of_derives empty rfl, List.mem_append]
    exact .inr (by simpa [Node.leading] using ih)
  | alt mem _ ih => exact Node.mem_leadingOfBranches mem ih
  | rep _ _ ih => exact ih

theorem mem_ruleNames_of_leads {g : Grammar} {node : Node} {name : String}
    (h : Leads g node name) : name ∈ node.ruleNames := by
  induction h with
  | rule name => simp [Node.ruleNames]
  | first _ ih =>
    rw [Node.ruleNames, Node.ruleNamesOf, List.mem_append]
    exact .inl ih
  | skip _ _ ih =>
    rw [Node.ruleNames, Node.ruleNamesOf, List.mem_append]
    exact .inr ih
  | alt mem _ ih =>
    rw [Node.ruleNames, Node.ruleNamesOf_eq]
    exact List.mem_flatMap.2 ⟨_, mem, ih⟩
  | rep _ _ ih => exact ih

end Grammar

end SchemaGrammar
