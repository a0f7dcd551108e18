import SchemaGrammar.Failure

set_option autoImplicit false

/-! # Ranges of integers

An expression for the decimal texts of the integers in a range: a minus sign for the negative
ones, no leading zeros. A range is cut into bands of equally long numbers. Within a band the
digits that both ends share are a literal; at the first digit where the ends part, the lowest
digit is followed by what is above the lower end, the digits between by anything, and the
highest by what is below the upper end. Where the range is open, numbers up to a ceiling of
digits are taken. Bounds and ceilings of too many digits cannot be written. -/

namespace SchemaGrammar

namespace IntRange

/-! ## Pieces -/

/-- The digits from one to another. -/
def digitRange (a b : Char) : String :=
  if a = b then "[" ++ a.toString ++ "]" else "[" ++ a.toString ++ "-" ++ b.toString ++ "]"

/-- Exactly so many digits. -/
def anyDigits (count : Nat) : String :=
  if count = 1 then "[0-9]" else "[0-9]\x7b" ++ natText count ++ "\x7d"

/-- From `least` to `most` digits. -/
def moreDigits (least : Nat) (most : Number) : Except RangeFault String :=
  if most.same (.whole least) then .ok (anyDigits least)
  else if most.isWritable then .ok ("[0-9]\x7b" ++ natText least ++ "," ++ most.text ++ "\x7d")
  else .error .tooManyDigits

def quotedDigits (ds : List Char) : String :=
  "\"" ++ String.ofList ds ++ "\""

/-- An expression behind shared digits; without any it stands alone. -/
def behind (lead : List Char) (s : String) : String :=
  if lead.isEmpty then s else quotedDigits lead ++ " " ++ s

/-- The digits of a natural. -/
def digitsOf (n : Nat) : List Char :=
  Nat.toDigits 10 n

def nines (count : Nat) : List Char :=
  List.replicate count '9'

def zeros (count : Nat) : List Char :=
  List.replicate count '0'

def nextDigit (c : Char) : Char :=
  Char.ofNat (c.toNat + 1)

def previousDigit (c : Char) : Char :=
  Char.ofNat (c.toNat - 1)

/-! ## Bands -/

/-- The numbers between two digit strings of one length; `lead` are the digits that both have
    in front. -/
def uniformFrom (lead : List Char) : List Char → List Char → String
  | a :: as, b :: bs =>
    if a = b then uniformFrom (lead ++ [a]) as bs
    else if as.isEmpty then behind lead (digitRange a b)
    else
      let rest := as.length
      let highest := " | " ++ digitRange b b ++ " " ++ uniformFrom [] (zeros rest) bs
      let branches :=
        if as = zeros rest then
          digitRange a (previousDigit b) ++ " " ++ anyDigits rest ++ highest
        else
          let lowest := digitRange a a ++ " (" ++ uniformFrom [] as (nines rest) ++ ")"
          if a.toNat + 1 < b.toNat then
            if bs = nines rest then
              lowest ++ " | " ++ digitRange (nextDigit a) b ++ " " ++ anyDigits rest
            else
              lowest ++ " | " ++ digitRange (nextDigit a) (previousDigit b) ++ " "
                ++ anyDigits rest ++ highest
          else lowest ++ highest
      behind lead ("(" ++ branches ++ ")")
  | _, _ => quotedDigits lead
termination_by as => as.length
decreasing_by all_goals simp [zeros]

/-- The numbers between two digit strings of one length. -/
def uniform (low high : List Char) : String :=
  uniformFrom [] low high

/-- The bands from `low` up to `high`, which has `longer` digits more. -/
def bandsFrom (high : List Char) : Nat → List Char → List String
  | 0, low => [uniform low high]
  | longer + 1, low =>
    uniform low (nines low.length) :: bandsFrom high longer ('1' :: zeros low.length)

/-- The naturals from `low` to `high`. -/
def naturals (low high : Nat) : String :=
  let l := digitsOf low
  let h := digitsOf high
  " | ".intercalate (bandsFrom h (h.length - l.length) l)

/-! ## Ranges -/

/-- An expression for the negatives of what another one is for. -/
def negated (s : String) : String :=
  "\"-\" (" ++ s ++ ")"

/-- The integers from `low` to `high`. -/
def between (low high : Int) : String :=
  if high < 0 then negated (naturals high.natAbs low.natAbs)
  else if low < 0 then negated (naturals 1 low.natAbs) ++ " | " ++ naturals 0 high.natAbs
  else naturals low.natAbs high.natAbs

/-- The naturals from `low` up; beyond its own length up to the ceiling of digits. -/
def naturalsFrom (ceiling : Number) (low : Nat) : Except RangeFault String := do
  let l := digitsOf low
  let own := uniform l (nines l.length)
  if Number.lt (.whole l.length) ceiling then
    return own ++ " | [1-9] " ++ (← moreDigits l.length ceiling.pred)
  else return own

/-- The integers from `low` up. -/
def atLeast (ceiling : Number) (low : Int) : Except RangeFault String := do
  if low < 0 then
    return negated (naturals 1 low.natAbs) ++ " | " ++ (← naturalsFrom ceiling 0)
  else naturalsFrom ceiling low.natAbs

/-- The integers up to `high`. -/
def atMost (ceiling : Number) (high : Int) : Except RangeFault String := do
  if high < 0 then return negated (← naturalsFrom ceiling high.natAbs)
  else
    return "\"-\" [1-9] " ++ (← moreDigits 0 ceiling.pred) ++ " | " ++ naturals 0 high.natAbs

/-- The ceiling that applies to open sides: at least one digit. -/
def ceilingOf (maxDigits : Number) : Number :=
  if maxDigits.lt (.whole 1) then .whole 1 else maxDigits

/-- A bound has to have few enough digits to be written. -/
def checkBound (n : Int) : Except RangeFault Unit :=
  if (Number.whole n).isWritable then .ok () else .error .tooManyDigits

/-- An expression for the integers between two bounds, of which at least one is given. -/
def expression (low high : Option Int) (maxDigits : Number) : Except RangeFault String := do
  low.forM checkBound
  high.forM checkBound
  let ceiling := ceilingOf maxDigits
  match low, high with
  | none, none => .error .unbounded
  | some l, none => atLeast ceiling l
  | none, some h => atMost ceiling h
  | some l, some h => if h < l then .error (.empty l h) else .ok (between l h)

/-- The ceiling of digits when none is chosen. -/
def defaultMaxDigits : Int := 16

end IntRange

end SchemaGrammar
