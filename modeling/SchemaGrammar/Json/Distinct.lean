import SchemaGrammar.Json.Compare
import SchemaGrammar.RunSort

set_option autoImplicit false

/-! # Lists without equal items

Items that have an order are sorted, so that only neighbours need to be compared; others are
compared each with each. The two ways differ where the order is finer or coarser than equality:
true and one have the same place in the order, and what is no number has none. -/

namespace SchemaGrammar

namespace Json

/-- Are two items the same? Truth values are no numbers. -/
def sameItem (a b : Json) : Bool :=
  areNan a b || a.equal false b

/-- The order of items, in which truth values have no place. -/
def lessItem : Json → Json → Except Unordered Bool
  | .bool a, b => .error ⟨(Json.bool a).kind, b.kind⟩
  | a, .bool b => .error ⟨a.kind, (Json.bool b).kind⟩
  | a, b => a.less b

/-- Are no two neighbours the same? -/
def neighboursDiffer : List Json → Bool
  | a :: b :: rest => !sameItem a b && neighboursDiffer (b :: rest)
  | _ => true

/-- Are no two items the same? -/
def pairsDiffer : List Json → Bool
  | [] => true
  | a :: rest => !(rest.any (sameItem a)) && pairsDiffer rest

/-- Are all items different? -/
def allDifferent (items : List Json) : Bool :=
  match RunSort.sort lessItem items with
  | .ok sorted => neighboursDiffer sorted
  | .error _ => pairsDiffer items

end Json

end SchemaGrammar
