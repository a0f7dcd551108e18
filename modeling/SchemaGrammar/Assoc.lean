set_option autoImplicit false

/-! # Values by name, in the order of their first appearance -/

namespace SchemaGrammar.Assoc

variable {α : Type}

/-- Set the value of a name: a new name comes last, an old one keeps its place. -/
def set : List (String × α) → String → α → List (String × α)
  | [], key, value => [(key, value)]
  | (k, v) :: rest, key, value =>
    if k == key then (k, value) :: rest else (k, v) :: set rest key value

def has (pairs : List (String × α)) (key : String) : Bool :=
  (pairs.lookup key).isSome

/-- The pairs with every repeated name once: it keeps its first place and takes its last
    value. -/
def ofPairs (pairs : List (String × α)) : List (String × α) :=
  pairs.foldl (fun done (key, value) => set done key value) []

/-- Does a list of names come in this order? Names are ordered by their code points. -/
def nameLe (a b : String) : Bool :=
  !decide (b < a)

def sortNames (names : List String) : List String :=
  names.mergeSort nameLe

end SchemaGrammar.Assoc
