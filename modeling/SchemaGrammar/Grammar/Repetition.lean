import SchemaGrammar.Failure
import SchemaGrammar.Json.Compare
import SchemaGrammar.Text.Blank

set_option autoImplicit false

/-! # Counted repetition

An expression for an item that stands a number of times, with a separator between each two if
one is given. Counts come from documents and are any values there: they are compared by value
and written as they are, so an ill-chosen count is found when the grammar is read. Only a count of
too many digits is found here. -/

namespace SchemaGrammar

namespace Grammar

/-- Is the one count greater than the other? -/
def countAbove (a b : Json) : Except Failure Bool :=
  match b.less a with
  | .ok answer => .ok answer
  | .error pair => .error (.misuse (.unordered ">" pair.right pair.left))

/-- The least count may not be above the greatest one, if there is one. -/
def checkCounts (low high : Json) : Except Failure Unit :=
  match high with
  | .null => .ok ()
  | _ => do if ← countAbove low high then .error (.count (.ofCounts low high))

/-- One less than a count that is a number. -/
def countPred (v : Json) : Json :=
  match v.number? with
  | some x => .num x.pred
  | none => v

/-- The item from `low` to `high` times, where no greatest count is null. The expression for
    exactly no item is empty. -/
def repetition (item : String) (low high : Json) : Except Failure String := do
  checkCounts low high
  let unbounded := high matches .null
  if high.isNumber 0 then return ""
  else if low.isNumber 0 && high.isNumber 1 then return item ++ "?"
  else if low.isNumber 1 && unbounded then return item ++ "+"
  else if low.isNumber 0 && unbounded then return item ++ "*"
  else if !(low.isWritable && high.isWritable) then .error (.count .tooManyDigits)
  else
    let most := if unbounded then "" else high.shown
    return item ++ "\x7b" ++ low.shown ++ "," ++ most ++ "\x7d"

/-- The item from `low` to `high` times with a separator between each two: one item, and the
    rest as repetitions of separator and item together. -/
def separatedRepetition (item separator : String) (low high : Json) :
    Except Failure String := do
  checkCounts low high
  if high.isNumber 0 then return ""
  else if low.isNumber 0 && high.isNumber 1 then return item ++ "?"
  else
    let fewer := if ← countAbove low (.num (.whole 0)) then countPred low else .num (.whole 0)
    let rest ← repetition ("(" ++ separator ++ " " ++ item ++ ")") fewer (countPred high)
    let all := Text.dropTrailingBlanks (item ++ " " ++ rest)
    return if low.isNumber 0 then "(" ++ all ++ ")?" else all

end Grammar

end SchemaGrammar
