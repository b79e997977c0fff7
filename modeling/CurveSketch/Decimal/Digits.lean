import CurveSketch.Decimal.Double

/-!
# CurveSketch.Decimal.Digits

Which decimal digits stand for a double. Two rules, both in exact integer arithmetic:
`significant` rounds a fraction to a set number of digits, a half going to the even neighbour;
`shortest` finds the fewest digits that read back to the same double, and of those the nearest.
-/

namespace CurveSketch
namespace Decimal

/-- A decimal number: `coefficient · 10^exponent`. -/
structure Scientific where
  coefficient : Nat
  exponent : Int
  deriving DecidableEq, Repr

/-- The number of decimal digits of a natural number; 0 has one. -/
def digitCount (n : Nat) : Nat :=
  (Nat.toDigits 10 n).length

/-- The fraction `num / den` rounded to an integer, a half to the even neighbour. -/
def roundHalfEven (num den : Nat) : Nat :=
  let quotient := num / den
  let twice := 2 * (num % den)
  if twice < den then quotient
  else if den < twice then quotient + 1
  else if quotient % 2 == 0 then quotient else quotient + 1

/-- The exponent `k` with `10^k ≤ num / den < 10^(k+1)`, for a positive fraction. -/
def leadingExponent (num den : Nat) : Int :=
  if den ≤ num then (digitCount (num / den) : Int) - 1
  else -(digitCount ((den - 1) / num) : Int)

def inUnits (num den : Nat) (exponent : Int) : Nat × Nat :=
  if exponent < 0 then (num * Nat.pow 10 exponent.natAbs, den)
  else (num, den * Nat.pow 10 exponent.natAbs)

def significant (count : Nat) (num den : Nat) : Scientific :=
  let exponent := leadingExponent num den - count + 1
  let (n, d) := inUnits num den exponent
  let coefficient := roundHalfEven n d
  if coefficient == Nat.pow 10 count then ⟨Nat.pow 10 (count - 1), exponent + 1⟩
  else ⟨coefficient, exponent⟩

/-- The numbers that round to the double `mantissa · 2^exponent`: from half a step below to half
a step above, the ends included when the mantissa is even. Below a power of two the step is half
as wide. Written in units of `2^(exponent - 2)`. -/
structure RoundingInterval where
  low : Nat
  high : Nat
  closed : Bool
  exponent : Int

def RoundingInterval.of (mantissa : Nat) (exponent : Int) : RoundingInterval :=
  let narrow := mantissa == hiddenBit && exponent != -1074
  { low := 4 * mantissa - (if narrow then 1 else 2)
    high := 4 * mantissa + 2
    closed := mantissa % 2 == 0
    exponent := exponent - 2 }

def RoundingInterval.contains (r : RoundingInterval) (num den : Nat) : Bool :=
  let (unitNum, unitDen) := scaled 2 1 r.exponent
  let value := num * unitDen
  let low := r.low * unitNum * den
  let high := r.high * unitNum * den
  if r.closed then low ≤ value && value ≤ high else low < value && value < high

def RoundingInterval.admits (r : RoundingInterval) (s : Scientific) : Bool :=
  let (num, den) := scaled 10 s.coefficient s.exponent
  r.contains num den

/-- The decimal of `count` digits nearest to `num / den` among its two neighbours on that grid
that read back, if one of them does. A tie goes to the even one. -/
def atPrecision? (r : RoundingInterval) (num den count : Nat) : Option Scientific :=
  let exponent := leadingExponent num den - count + 1
  let (n, d) := inUnits num den exponent
  let below : Scientific := ⟨n / d, exponent⟩
  let above : Scientific := ⟨n / d + 1, exponent⟩
  match r.admits below, r.admits above with
  | true, true => some (if roundHalfEven n d == n / d then below else above)
  | true, false => some below
  | false, true => some above
  | false, false => none

/-- The fewest digits that read back to the positive double `mantissa · 2^exponent`. Seventeen
digits always do, so the search ends there. -/
def shortest (mantissa : Nat) (exponent : Int) : Scientific :=
  let (num, den) := scaled 2 mantissa exponent
  let interval := RoundingInterval.of mantissa exponent
  match (List.range 16).findSome? fun i => atPrecision? interval num den (i + 1) with
  | some found => found
  | none => significant 17 num den

end Decimal
end CurveSketch
