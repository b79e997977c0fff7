/-!
# CurveSketch.Decimal.Double

The number that a double denotes, as exact integers: every finite double is
`±mantissa · 2^exponent`. All printing and all exact comparison of doubles starts here.
-/

namespace CurveSketch
namespace Decimal

inductive Decoded where
  | nan
  | infinite (negative : Bool)
  | finite (negative : Bool) (mantissa : Nat) (exponent : Int)
  deriving DecidableEq

/-- The leading bit of a normal mantissa, which the encoding leaves out: the 53rd. -/
def hiddenBit : Nat := 0x10000000000000

def Decoded.ofFloat (x : Float) : Decoded :=
  let bits : Nat := x.toBits.toNat
  let fraction : Nat := bits % hiddenBit
  let biased : Nat := bits / hiddenBit % 2048
  let negative := bits / (2048 * hiddenBit) == 1
  if biased == 2047 then
    if fraction == 0 then .infinite negative else .nan
  else if biased == 0 then .finite negative fraction (-1074)
  else .finite negative (fraction + hiddenBit) ((biased : Int) - 1075)

def scaled (base : Nat) (mantissa : Nat) (exponent : Int) : Nat × Nat :=
  if exponent < 0 then (mantissa, Nat.pow base exponent.natAbs)
  else (mantissa * Nat.pow base exponent.natAbs, 1)

/-- A finite double cut off towards zero; `none` for the others. -/
def truncate? (x : Float) : Option Int :=
  match Decoded.ofFloat x with
  | .finite negative mantissa exponent =>
    let (num, den) := scaled 2 mantissa exponent
    let size : Int := num / den
    some (if negative then -size else size)
  | _ => none

/-- Whether `n < x`, decided exactly: no rounding of the integer takes part. -/
def exceedsInt (x : Float) (n : Int) : Bool :=
  match Decoded.ofFloat x with
  | .nan => false
  | .infinite negative => !negative
  | .finite negative mantissa exponent =>
    let (num, den) := scaled 2 mantissa exponent
    let signed : Int := if negative then -num else num
    n * den < signed

theorem scaled_den_pos (base : Nat) (mantissa : Nat) (exponent : Int) (h : 0 < base) :
    0 < (scaled base mantissa exponent).2 := by
  unfold scaled
  split
  · exact Nat.pow_pos h
  · exact Nat.one_pos

end Decimal
end CurveSketch
