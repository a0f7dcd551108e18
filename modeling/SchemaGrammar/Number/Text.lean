import SchemaGrammar.Number.Double

set_option autoImplicit false

/-! # Numbers as text

A double is written with the fewest digits that read back. From `0.0001` up to sixteen digits
before the point the digits stand around a decimal point with at least one digit on each side;
otherwise one digit stands before the point and a signed exponent of at least two digits
follows. -/

namespace SchemaGrammar

namespace Double

/-- What a writer calls the values that are not finite. -/
structure Names where
  infinity : String
  nan : String

/-- The names in JSON text. -/
def jsonNames : Names := ⟨"Infinity", "NaN"⟩

/-- The names in messages. -/
def messageNames : Names := ⟨"inf", "nan"⟩

/-- Digits without the zeros at their end. -/
def dropTrailingZeros (ds : List Char) : List Char :=
  (ds.reverse.dropWhile (· = '0')).reverse

/-- Digits around a decimal point that stands after the first `point` of them. -/
def positional (ds : List Char) (point : Int) : List Char :=
  if point ≤ 0 then '0' :: '.' :: (List.replicate (-point).toNat '0' ++ ds)
  else if point.toNat < ds.length then ds.take point.toNat ++ '.' :: ds.drop point.toNat
  else ds ++ List.replicate (point.toNat - ds.length) '0' ++ ['.', '0']

/-- One digit before the point, the rest after it, and the exponent. -/
def scientific (ds : List Char) (point : Int) : List Char :=
  let exponent := point - 1
  let size := Nat.toDigits 10 exponent.natAbs
  let size := if size.length < 2 then '0' :: size else size
  let mantissa := match ds with
    | [] => ['0']
    | [d] => [d]
    | d :: rest => d :: '.' :: rest
  mantissa ++ 'e' :: (if exponent < 0 then '-' else '+') :: size

/-- The text of a double's magnitude. -/
def magnitudeText (m : Nat) (e : Int) : List Char :=
  if m = 0 then ['0', '.', '0']
  else
    let c := shortest m e
    let all := Nat.toDigits 10 c.digits
    let point := all.length + c.power
    let ds := dropTrailingZeros all
    if -4 < point && point ≤ 16 then positional ds point else scientific ds point

def signed (negative : Bool) (s : String) : String :=
  if negative then "-" ++ s else s

def text (names : Names) : Double → String
  | .nan => names.nan
  | .infinite negative => signed negative names.infinity
  | .finite negative m e => signed negative (String.ofList (magnitudeText m e))

end Double

/-- The decimal digits of a natural. -/
def natText (n : Nat) : String :=
  String.ofList (Nat.toDigits 10 n)

/-- A whole number in decimal digits. -/
def intText (n : Int) : String :=
  if n < 0 then "-" ++ natText n.natAbs else natText n.natAbs

end SchemaGrammar
