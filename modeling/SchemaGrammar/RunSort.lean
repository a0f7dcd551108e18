set_option autoImplicit false

/-! # Sorting where a comparison may fail

A list is sorted by insertion: the run at its front is sorted already, or in reverse, and each
item behind it finds its place by halving. Where all items have an order this is the stable
sort. Where some have none, the result depends on which items meet, so the steps are part of
what is promised. -/

namespace SchemaGrammar.RunSort

variable {α ε : Type} (less : α → α → Except ε Bool)

/-- The front of a list in which each item is less than the one before it or, if not `falling`,
    is not; and what follows. -/
def takeRun (falling : Bool) (last : α) : List α → Except ε (List α × List α)
  | [] => .ok ([], [])
  | x :: rest => do
    if (← less x last) == falling then
      let (run, behind) ← takeRun falling x rest
      return (x :: run, behind)
    else return ([], x :: rest)

/-- Put an item behind all sorted ones that it is not less than, halving the list each time. -/
def insert (x : α) : List α → Except ε (List α)
  | [] => .ok [x]
  | first :: rest => do
    let half := (first :: rest).length / 2
    let middle := ((first :: rest).drop half).headD first
    let below := (first :: rest).take half
    let above := (first :: rest).drop (half + 1)
    if ← less x middle then return (← insert x below) ++ middle :: above
    else return below ++ middle :: (← insert x above)
termination_by sorted => sorted.length
decreasing_by
  · simp only [List.length_take, List.length_cons]
    omega
  · simp only [List.length_drop, List.length_cons]
    omega

/-- Sort a list: take the run at its front, turn it round if it falls and insert the rest. -/
def sort : List α → Except ε (List α)
  | x :: y :: rest => do
    let falling ← less y x
    let (run, behind) ← takeRun less falling y rest
    let front := x :: y :: run
    behind.foldlM (fun sorted z => insert less z sorted)
      (if falling then front.reverse else front)
  | short => .ok short

end SchemaGrammar.RunSort
