set_option autoImplicit false

/-! # Binary64 numbers

A double is held by its sign, mantissa and exponent, so that it is a plain rational and all
comparisons, roundings and conversions are exact arithmetic on naturals. Every finite value is
kept in the one form that binary64 gives it: the mantissa has 53 bits, or the exponent is the
least one. -/

namespace SchemaGrammar

/-- A binary64 number; `finite negative m e` is `m · 2^e` with its sign. -/
inductive Double where
  | nan
  | infinite (negative : Bool)
  | finite (negative : Bool) (mantissa : Nat) (exponent : Int)
  deriving Repr, DecidableEq

namespace Double

/-- The least exponent of a double. -/
def minExponent : Int := -1074

/-- The greatest exponent of a double. -/
def maxExponent : Int := 971

/-- The mantissa of a normal double lies from here to twice this. -/
def leastNormal : Nat := Nat.pow 2 52

/-- A double without magnitude; zero has a sign. -/
def signedZero (negative : Bool) : Double :=
  .finite negative 0 minExponent

/-! ## Rounding -/

/-- The quotient rounded to the nearest natural, a half to the even one. -/
def roundDiv (num den : Nat) : Nat :=
  let q := num / den
  let r := num % den
  if den < 2 * r || (2 * r == den && q % 2 == 1) then q + 1 else q

/-- `num / den / 2^e` as a quotient of naturals. -/
def scale (num den : Nat) (e : Int) : Nat × Nat :=
  if 0 ≤ e then (num, den * Nat.pow 2 e.toNat) else (num * Nat.pow 2 (-e).toNat, den)

/-- The exponent at which the quotient of two positive naturals has a mantissa of 53 bits. -/
def exponentFor (num den : Nat) : Int :=
  let e : Int := Nat.log2 num - Nat.log2 den - 52
  let (n, d) := scale num den e
  max minExponent (if n < leastNormal * d then e - 1 else e)

/-- The double nearest to a quotient, a tie to the even mantissa. -/
def ofRatio (negative : Bool) (num den : Nat) : Double :=
  if num = 0 then signedZero negative
  else
    let e := exponentFor num den
    let (n, d) := scale num den e
    let m := roundDiv n d
    let (m, e) := if m = 2 * leastNormal then (leastNormal, e + 1) else (m, e)
    if maxExponent < e then .infinite negative else .finite negative m e

/-- How many decimal digits a natural has. -/
def decimalLength (n : Nat) : Nat :=
  (Nat.toDigits 10 n).length

/-- The double nearest to `digits · 10^power`. Powers far outside the range of doubles are
    settled by the number of digits alone. -/
def ofDecimal (negative : Bool) (digits : Nat) (power : Int) : Double :=
  let places := decimalLength digits + power
  if digits = 0 || places < -330 then signedZero negative
  else if 310 < places then .infinite negative
  else if 0 ≤ power then ofRatio negative (digits * Nat.pow 10 power.toNat) 1
  else ofRatio negative digits (Nat.pow 10 (-power).toNat)

/-! ## Exact values -/

/-- The exact value of a finite double as numerator and positive denominator. -/
def ratio? : Double → Option (Int × Nat)
  | .finite negative m e =>
    let num : Nat := if 0 ≤ e then m * Nat.pow 2 e.toNat else m
    some (if negative then -(num : Int) else num, if 0 ≤ e then 1 else Nat.pow 2 (-e).toNat)
  | _ => none

def isFinite : Double → Bool
  | .finite .. => true
  | _ => false

/-- The greatest whole number that is not above a finite double. -/
def floor? (x : Double) : Option Int :=
  x.ratio?.map fun (num, den) => num.fdiv den

/-- The least whole number that is not below a finite double. -/
def ceil? (x : Double) : Option Int :=
  x.ratio?.map fun (num, den) => -((-num).fdiv den)

/-- One less, rounded to a double. -/
def pred (x : Double) : Double :=
  match x.ratio? with
  | some (num, den) =>
    let less := num - den
    ofRatio (less < 0) less.natAbs den
  | none => x

/-! ## The fewest digits that read back -/

/-- The decimal point of `num / den`: the least power of ten above the quotient. -/
def decimalPoint (num den : Nat) : Int :=
  if den ≤ num then decimalLength (num / den)
  else 1 - (decimalLength ((den + num - 1) / num - 1) : Int)

/-- The values that round to a double lie between two neighbours. In quarters of the last
    mantissa bit: the lower end, the double itself and the upper end. Below the least mantissa
    of a binade doubles stand twice as close. -/
def quarters (m : Nat) (e : Int) : Nat × Nat × Nat :=
  (if m = leastNormal && minExponent < e then 4 * m - 1 else 4 * m - 2, 4 * m, 4 * m + 2)

/-- A number of digits with the power of ten of the last one. -/
structure Candidate where
  digits : Nat
  power : Int

/-- The decimal with `count` digits nearest to `m · 2^e` that reads back as it, if there is
    one. Only the two multiples of the last place next to the value can be nearest. -/
def candidate? (m : Nat) (e : Int) (count : Nat) : Option Candidate :=
  let (low, mid, high) := quarters m e
  let (num, den) := scale mid 1 (2 - e)
  let power := decimalPoint num den - count
  let unit : Nat × Nat :=
    if 0 ≤ power then (Nat.pow 10 power.toNat, 1) else (1, Nat.pow 10 (-power).toNat)
  -- Everything below is measured in quarters, over the common denominator `unit.2`.
  let step : Nat × Nat := scale unit.1 1 (e - 2)
  let value := mid * unit.2 * step.2
  let place := step.1
  let below := value / place
  let above := below + 1
  let inside (k : Nat) : Bool :=
    let x := k * place
    let l := low * unit.2 * step.2
    let h := high * unit.2 * step.2
    if m % 2 = 0 then l ≤ x && x ≤ h else l < x && x < h
  let toBelow := value - below * place
  let toAbove := above * place - value
  let nearerBelow := toBelow < toAbove || (toBelow == toAbove && below % 2 == 0)
  if inside below && (nearerBelow || !inside above) then some ⟨below, power⟩
  else if inside above then some ⟨above, power⟩
  else none

/-- The shortest decimal that reads back as a positive double, found by trying one digit more
    at a time; seventeen always suffice. -/
def shortest (m : Nat) (e : Int) : Candidate :=
  ((List.range 17).findSome? fun k => candidate? m e (k + 1)).getD ⟨m, 0⟩

end Double

end SchemaGrammar
