import CurveSketch.Value
import CurveSketch.Decimal.Reading
import CurveSketch.Text.Quoted

/-!
# CurveSketch.Value.Number

Numbers in values. `toReal` reads any value as a double: whole numbers, doubles and truth values
as they are, texts by their digits. `toWhole` goes on to cut the double off towards zero. Each
way to fail is a cause of its own, since callers treat them differently: a number too large is
not the same as no number.
-/

namespace CurveSketch

inductive RealFault where
  | notNumeric (kind : String)
  | unreadable (text : String)
  | tooLarge
  deriving DecidableEq

def RealFault.message : RealFault → String
  | .notNumeric kind => s!"float() argument must be a string or a real number, not '{kind}'"
  | .unreadable text => s!"could not convert string to float: {Text.quoted text}"
  | .tooLarge => "int too large to convert to float"

inductive WholeFault where
  | real (fault : RealFault)
  | infinite
  | notANumber
  deriving DecidableEq

def WholeFault.message : WholeFault → String
  | .real fault => fault.message
  | .infinite => "cannot convert float infinity to integer"
  | .notANumber => "cannot convert float NaN to integer"

/-- The number exists but is out of range, as opposed to no number being there. -/
def WholeFault.isOverflow : WholeFault → Bool
  | .real .tooLarge => true
  | .infinite => true
  | _ => false

inductive Number where
  | whole (n : Int)
  | real (x : Float)

/-- The double is greater than the number; a whole number is not rounded for it. -/
def Number.below (n : Number) (x : Float) : Bool :=
  match n with
  | .whole n => Decimal.exceedsInt x n
  | .real y => y < x

namespace Value

def realOfInt (n : Int) : Except RealFault Float :=
  match Decimal.ofInt? n with
  | some x => .ok x
  | none => .error .tooLarge

def toReal : Value → Except RealFault Float
  | bool b => .ok (if b then 1 else 0)
  | int n => realOfInt n
  | real x => .ok x
  | text s =>
    match Decimal.readReal? s with
    | some x => .ok x
    | none => .error (.unreadable s)
  | brokenText s => .error (.unreadable s)
  | v => .error (.notNumeric v.kind)

def wholeOfReal (x : Float) : Except WholeFault Int :=
  match Decimal.truncate? x with
  | some n => .ok n
  | none => .error (if x.isNaN then .notANumber else .infinite)

def toWhole (v : Value) : Except WholeFault Int :=
  match v.toReal with
  | .ok x => wholeOfReal x
  | .error fault => .error (.real fault)

/-- The number that a value is, truth values counting as 0 and 1. -/
def number? : Value → Option Number
  | bool b => some (.whole (if b then 1 else 0))
  | int n => some (.whole n)
  | real x => some (.real x)
  | _ => none

end Value

/-- The number as arithmetic with doubles takes it: whole numbers are rounded. -/
def Number.toReal : Number → Except RealFault Float
  | whole n => Value.realOfInt n
  | real x => .ok x

end CurveSketch
