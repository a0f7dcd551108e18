set_option autoImplicit false

/-! # Tries

A trie holds texts by their beginnings: from each node an edge goes out for every character
that comes next in one of the texts, and a node is marked where a text ends. -/

namespace SchemaGrammar

inductive Trie where
  /-- `ends` tells whether a text ends here; the edges stand in the order in which they were
      first used. -/
  | node (ends : Bool) (edges : List (Char × Trie))
  deriving Repr, Inhabited

namespace Trie

def empty : Trie := .node false []

def ends : Trie → Bool
  | .node e _ => e

def edges : Trie → List (Char × Trie)
  | .node _ kids => kids

/-- Change what an edge leads to; a new edge leads to the change of an empty trie. -/
def changeEdge (change : Trie → Trie) (c : Char) : List (Char × Trie) → List (Char × Trie)
  | [] => [(c, change empty)]
  | (d, kid) :: rest =>
    if d = c then (d, change kid) :: rest else (d, kid) :: changeEdge change c rest

/-- Add a text. -/
def insert : List Char → Trie → Trie
  | [], .node _ kids => .node true kids
  | c :: cs, .node e kids => .node e (changeEdge (insert cs) c kids)

/-- The trie of some texts. -/
def ofTexts (texts : List (List Char)) : Trie :=
  texts.foldl (fun t cs => insert cs t) empty

end Trie

end SchemaGrammar
