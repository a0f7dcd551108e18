import SchemaGrammar.Json.Value

set_option autoImplicit false

/-! # Comparing JSON values

Equality looks at numbers by value, and in the loose form at truth values as the numbers one
and zero. What is no number equals nothing, except as a part of a list or an object, where it
equals itself. Order is defined between numbers, between texts and, item by item, between
lists; any other pair has none. -/

namespace SchemaGrammar

namespace Json

/-! ## Equality -/

/-- Are both values the double that is no number? -/
def areNan : Json → Json → Bool
  | .num (.double .nan), .num (.double .nan) => true
  | _, _ => false

mutual

/-- Are two values equal? With `loose`, true is one and false is zero. Objects are compared
    without regard to order. -/
def equal (loose : Bool) : Json → Json → Bool
  | .null, .null => true
  | .bool a, .bool b => a == b
  | .num x, .num y => x.same y
  | .bool a, .num y => loose && Number.same (.whole (if a then 1 else 0)) y
  | .num x, .bool b => loose && Number.same x (.whole (if b then 1 else 0))
  | .str s, .str t => s == t
  | .arr as, .arr bs => equalItems loose as bs
  | .obj as, .obj bs => as.length == bs.length && equalFields loose as bs
  | _, _ => false

def equalItems (loose : Bool) : List Json → List Json → Bool
  | [], [] => true
  | a :: as, b :: bs => (areNan a b || equal loose a b) && equalItems loose as bs
  | _, _ => false

/-- Is every field of the first object in the second with an equal value? -/
def equalFields (loose : Bool) : List (String × Json) → List (String × Json) → Bool
  | [], _ => true
  | (key, a) :: as, bs =>
    (match Fields.get? bs key with
      | some b => areNan a b || equal loose a b
      | none => false) && equalFields loose as bs

end

/-- Is a value the whole number `n`, by value? -/
def isNumber (n : Int) (v : Json) : Bool :=
  match v.number? with
  | some x => x.same (.whole n)
  | none => false

/-! ## Order -/

/-- Two kinds of values that have no order between them. -/
structure Unordered where
  left : Kind
  right : Kind
  deriving Repr, DecidableEq

mutual

/-- Is the first value less than the second? Lists are compared at their first unequal items,
    and a list comes after each of its beginnings. -/
def less : Json → Json → Except Unordered Bool
  | .num x, .num y => .ok (x.lt y)
  | .num x, .bool b => .ok (x.lt (.whole (if b then 1 else 0)))
  | .bool a, .num y => .ok (Number.lt (.whole (if a then 1 else 0)) y)
  | .bool a, .bool b => .ok (!a && b)
  | .str s, .str t => .ok (s < t)
  | .arr as, .arr bs => lessItems as bs
  | a, b => .error ⟨a.kind, b.kind⟩

def lessItems : List Json → List Json → Except Unordered Bool
  | [], bs => .ok !bs.isEmpty
  | _ :: _, [] => .ok false
  | a :: as, b :: bs =>
    if areNan a b || equal true a b then lessItems as bs else less a b

end

end Json

end SchemaGrammar
