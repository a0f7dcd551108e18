import SchemaGrammar.Text.Blank
import SchemaGrammar.Text.Digit
import SchemaGrammar.Text.Hex

set_option autoImplicit false

/-! # Whole numbers as people type them

Counts and escapes are read leniently: blanks around the number, a sign, decimal digits of any
script, one underscore between two digits and, in base sixteen, a leading `0x`. -/

namespace SchemaGrammar.Text

/-- The most digits that a decimal numeral may have. -/
def maxNumeralDigits : Nat := 4300

/-- Every script's digits become ASCII digits and the blanks above ASCII become spaces. -/
def toAsciiNumeral (c : Char) : Char :=
  if c.toNat < 0x80 then c
  else if isBlank c then ' '
  else match decimalValue? c with
    | some d => Char.ofNat (0x30 + d)
    | none => c

/-- The ASCII blanks, which may surround a numeral. -/
def isAsciiBlank (c : Char) : Bool :=
  c = ' ' || ('\t' ≤ c && c ≤ '\r')

/-- The value of a digit below the base. -/
def digitValue? (base : Nat) (c : Char) : Option Nat :=
  (hexValue? c).filter (· < base)

/-- The values of the digits of a run, in which an underscore stands only between two digits. -/
def runValues (base : Nat) : List Char → Option (List Nat)
  | [] => none
  | [c] => (digitValue? base c).map fun d => [d]
  | c :: '_' :: rest => do
    let d ← digitValue? base c
    let ds ← runValues base rest
    return d :: ds
  | c :: rest => do
    let d ← digitValue? base c
    let ds ← runValues base rest
    return d :: ds

/-- Can a character stand in a run of digits? -/
def inDigitRun (base : Nat) (c : Char) : Bool :=
  c = '_' || (digitValue? base c).isSome

/-- A leading minus or plus sign: is the number negative, and what follows. -/
def signOf : List Char → Bool × List Char
  | '-' :: rest => (true, rest)
  | '+' :: rest => (false, rest)
  | cs => (false, cs)

/-- In base sixteen a numeral may start with `0x`, which an underscore may follow. -/
def dropBaseMark (base : Nat) : List Char → List Char
  | '0' :: x :: '_' :: rest =>
    if base = 16 && (x = 'x' || x = 'X') then rest else '0' :: x :: '_' :: rest
  | '0' :: x :: rest => if base = 16 && (x = 'x' || x = 'X') then rest else '0' :: x :: rest
  | cs => cs

/-- The number that its digits spell, the highest first. -/
def ofDigits (base : Nat) (ds : List Nat) : Nat :=
  ds.foldl (fun n d => n * base + d) 0

/-- The whole number that a text spells in base ten or sixteen, if it spells one. -/
def readInt? (base : Nat) (cs : List Char) : Option Int :=
  let (negative, body) := signOf ((cs.map toAsciiNumeral).dropWhile isAsciiBlank)
  let digits := dropBaseMark base body
  match runValues base (digits.takeWhile (inDigitRun base)) with
  | none => none
  | some ds =>
    if !(digits.dropWhile (inDigitRun base)).all isAsciiBlank
        || (base = 10 && maxNumeralDigits < ds.length) then none
    else
      let n : Int := ofDigits base ds
      some (if negative then -n else n)

/-! ## Counts

A count is read more strictly: in ASCII digits, without a minus sign. It may be written with a
fraction, as long as that is zero. -/

/-- The blanks that may surround a count, which leaves out the four ASCII separators. -/
def isCountBlank (c : Char) : Bool :=
  isBlank c && !(0x1C ≤ c.toNat && c.toNat ≤ 0x1F)

/-- Zeros in front of a count are dropped with the underscores among them. One zero stays when
    nothing else would. -/
def dropLeadingZeros (cs : List Char) : List Char :=
  if cs.head? = some '0' then
    match cs.dropWhile fun c => c = '0' || c = '_' with
    | [] => ['0']
    | '.' :: rest => '0' :: '.' :: rest
    | rest => rest
  else cs

/-- Is a text empty, or a point and zeros? -/
def isZeroFraction : List Char → Bool
  | [] => true
  | c :: zeros => c = '.' && !zeros.isEmpty && zeros.all (· = '0')

/-- The count that a text spells, if it spells one. -/
def readCount? (cs : List Char) : Option Nat :=
  let body := ((cs.dropWhile isCountBlank).reverse.dropWhile isCountBlank).reverse
  let unsigned := if body.head? = some '+' then body.drop 1 else body
  let kept := dropLeadingZeros unsigned
  match runValues 10 (kept.takeWhile (· ≠ '.')) with
  | none => none
  | some ds =>
    if ds.length ≤ maxNumeralDigits && isZeroFraction (kept.dropWhile (· ≠ '.')) then
      some (ofDigits 10 ds)
    else none

end SchemaGrammar.Text
