import SchemaGrammar.Number.Text
import SchemaGrammar.Text.Numeral

set_option autoImplicit false

/-! # Numbers: whole numbers of any size and doubles

The two kinds are told apart by how they are written and compared by their exact values, so
`1` and `1.0` are equal numbers with two texts. -/

namespace SchemaGrammar

/-- A number as a document or an option holds it. -/
inductive Number where
  | whole (n : Int)
  | double (x : Double)
  deriving Repr, DecidableEq

namespace Number

/-- Where a number stands among all numbers. -/
inductive Rank where
  | undefined
  | below
  | exact (num : Int) (den : Nat)
  | above

def rank : Number → Rank
  | .whole n => .exact n 1
  | .double .nan => .undefined
  | .double (.infinite true) => .below
  | .double (.infinite false) => .above
  | .double x => match x.ratio? with
    | some (num, den) => .exact num den
    | none => .undefined

/-- Is the one number less than the other? Nothing is less than or above what is no number. -/
def lt (a b : Number) : Bool :=
  match a.rank, b.rank with
  | .undefined, _ | _, .undefined => false
  | .below, .below => false
  | .below, _ => true
  | _, .below => false
  | .above, _ => false
  | .exact .., .above => true
  | .exact p q, .exact r s => p * s < r * q

/-- Have two numbers the same value? -/
def same (a b : Number) : Bool :=
  match a.rank, b.rank with
  | .below, .below | .above, .above => true
  | .exact p q, .exact r s => p * s == r * q
  | _, _ => false

/-- One less. -/
def pred : Number → Number
  | .whole n => .whole (n - 1)
  | .double x => .double x.pred

/-- The text of a number in a message or a count. -/
def text : Number → String
  | .whole n => intText n
  | .double x => x.text Double.messageNames

/-- Does a number have few enough digits to be written? A double always has. -/
def isWritable : Number → Bool
  | .whole n => (Nat.toDigits 10 n.natAbs).length ≤ Text.maxNumeralDigits
  | .double _ => true

/-- Does a double hold the value? All but the greatest whole numbers round to a finite one. -/
def fitsDouble : Number → Bool
  | .whole n => n.natAbs < Nat.pow 2 1024 - Nat.pow 2 970
  | .double _ => true

def isFinite : Number → Bool
  | .whole _ => true
  | .double x => x.isFinite

/-- The greatest whole number that is not above a finite number. -/
def floor? : Number → Option Int
  | .whole n => some n
  | .double x => x.floor?

/-- The least whole number that is not below a finite number. -/
def ceil? : Number → Option Int
  | .whole n => some n
  | .double x => x.ceil?

end Number

end SchemaGrammar
