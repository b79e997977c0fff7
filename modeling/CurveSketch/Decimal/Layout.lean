import CurveSketch.Decimal.Digits

/-!
# CurveSketch.Decimal.Layout

How a double is written. A `Layout` is one record of decisions: how many digits, up to which
exponent positional, what follows a whole number, and the words for what is no number. Below
`10^-4` every layout writes an exponent, with a sign and at least two digits; trailing zeros are
never written.
-/

namespace CurveSketch
namespace Decimal

/-- How many digits to write: a set number of significant ones, or the fewest that read back. -/
inductive Precision where
  | significant (count : Nat)
  | shortest
  deriving DecidableEq

structure Layout where
  precision : Precision
  /-- Exponents from this one on are written out. -/
  exponentFrom : Int
  /-- What follows a whole number in positional form. -/
  wholeMark : String
  nan : String
  infinity : String

/-- Twelve significant digits: constants in programs and token texts. -/
def Layout.twelve : Layout := ⟨.significant 12, 12, "", "nan", "inf"⟩

/-- Six significant digits: numbers in messages. -/
def Layout.six : Layout := ⟨.significant 6, 6, "", "nan", "inf"⟩

/-- The fewest digits that read back, whole numbers marked as such. -/
def Layout.exact : Layout := ⟨.shortest, 16, ".0", "nan", "inf"⟩

def Layout.document : Layout := ⟨.shortest, 16, ".0", "NaN", "Infinity"⟩

/-- The digits of a decimal without trailing zeros, and the exponent of the first one. -/
def Scientific.leading (s : Scientific) : List Char × Int :=
  let digits := Nat.toDigits 10 s.coefficient
  let kept := (digits.reverse.dropWhile (· == '0')).reverse
  (if kept.isEmpty then ['0'] else kept, s.exponent + digits.length - 1)

def exponentPart (exponent : Int) : List Char :=
  let digits := Nat.toDigits 10 exponent.natAbs
  'e' :: (if exponent < 0 then '-' else '+') :: (List.replicate (2 - digits.length) '0' ++ digits)

def withExponent (digits : List Char) (exponent : Int) : List Char :=
  match digits with
  | [] => exponentPart exponent
  | [first] => first :: exponentPart exponent
  | first :: rest => first :: '.' :: rest ++ exponentPart exponent

/-- Digits written out in full, the first one standing for `10^exponent`. -/
def positional (wholeMark : String) (digits : List Char) (exponent : Int) : List Char :=
  if exponent < 0 then
    '0' :: '.' :: (List.replicate (exponent.natAbs - 1) '0' ++ digits)
  else
    let whole := exponent.natAbs + 1
    if digits.length ≤ whole then
      digits ++ List.replicate (whole - digits.length) '0' ++ wholeMark.toList
    else
      digits.take whole ++ '.' :: digits.drop whole

def Layout.decimal (layout : Layout) (s : Scientific) : List Char :=
  let (digits, exponent) := s.leading
  if exponent < -4 || layout.exponentFrom ≤ exponent then withExponent digits exponent
  else positional layout.wholeMark digits exponent

def Layout.magnitude (layout : Layout) (mantissa : Nat) (exponent : Int) : List Char :=
  if mantissa == 0 then '0' :: layout.wholeMark.toList
  else
    match layout.precision with
    | .significant count =>
      let (num, den) := scaled 2 mantissa exponent
      layout.decimal (significant count num den)
    | .shortest => layout.decimal (shortest mantissa exponent)

def Layout.characters (layout : Layout) (x : Float) : List Char :=
  match Decoded.ofFloat x with
  | .nan => layout.nan.toList
  | .infinite negative => if negative then '-' :: layout.infinity.toList else layout.infinity.toList
  | .finite negative mantissa exponent =>
    if negative then '-' :: layout.magnitude mantissa exponent
    else layout.magnitude mantissa exponent

def Layout.render (layout : Layout) (x : Float) : String :=
  String.ofList (layout.characters x)

end Decimal
end CurveSketch
