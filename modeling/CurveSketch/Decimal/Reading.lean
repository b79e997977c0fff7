import CurveSketch.Decimal.Digits
import CurveSketch.Text.Blank
import CurveSketch.Text.Digit

/-!
# CurveSketch.Decimal.Reading

Numbers from text. A real number may have a sign, digits of any script with single underscores
between them, a point and an exponent, or be a word for an infinity or for no number; white space
around it is dropped. The value is the nearest double, infinite beyond the largest one.
-/

namespace CurveSketch
namespace Decimal

def infinity : Float := Float.ofBits 0x7FF0000000000000

def notANumber : Float := Float.ofBits 0x7FF8000000000000

/-- The double nearest to a decimal. Decimals from `10^310` on are beyond every double and those
below `10^-330` are nearer to zero than to any other. -/
def Scientific.toFloat (s : Scientific) : Float :=
  if s.coefficient == 0 then 0
  else
    let top := (digitCount s.coefficient : Int) + s.exponent
    if 310 < top then infinity
    else if top < -330 then 0
    else Float.ofScientific s.coefficient (s.exponent < 0) s.exponent.natAbs

def ofInt? (n : Int) : Option Float :=
  let size := (Scientific.mk n.natAbs 0).toFloat
  if size.isFinite then some (if n < 0 then -size else size) else none

def ofDigits (digits : List Nat) : Nat :=
  digits.foldl (fun value digit => 10 * value + digit) 0

/-- A run of digits with single underscores between them, and what follows it. -/
def digitRun (inside : Bool) : List Char → List Nat × List Char
  | [] => ([], [])
  | '_' :: next :: rest =>
    match inside, Text.digitValue? next with
    | true, some digit =>
      let (digits, tail) := digitRun true rest
      (digit :: digits, tail)
    | _, _ => ([], '_' :: next :: rest)
  | c :: rest =>
    match Text.digitValue? c with
    | some digit =>
      let (digits, tail) := digitRun true rest
      (digit :: digits, tail)
    | none => ([], c :: rest)

def takeSign : List Char → Bool × List Char
  | '-' :: rest => (true, rest)
  | '+' :: rest => (false, rest)
  | cs => (false, cs)

/-- The exponent after a number: nothing, or `e` and a signed run of digits to the end. -/
def exponentOf? : List Char → Option Int
  | [] => some 0
  | c :: rest =>
    if c == 'e' || c == 'E' then
      let (negative, digits) := takeSign rest
      match digitRun false digits with
      | (first :: more, []) =>
        let size : Int := ofDigits (first :: more)
        some (if negative then -size else size)
      | _ => none
    else none

def unsigned? (cs : List Char) : Option Scientific :=
  let (whole, afterWhole) := digitRun false cs
  let (fraction, afterFraction) :=
    match afterWhole with
    | '.' :: rest => digitRun false rest
    | rest => ([], rest)
  if whole.isEmpty && fraction.isEmpty then none
  else
    match exponentOf? afterFraction with
    | some exponent => some ⟨ofDigits (whole ++ fraction), exponent - fraction.length⟩
    | none => none

def word? (cs : List Char) : Option Float :=
  let folded := cs.map Char.toLower
  if folded == "inf".toList || folded == "infinity".toList then some infinity
  else if folded == "nan".toList then some notANumber
  else none

def bareReal? (cs : List Char) : Option Float :=
  let (negative, body) := takeSign cs
  let size? :=
    match word? body with
    | some x => some x
    | none =>
      match unsigned? body with
      | some s => some s.toFloat
      | none => none
  match size? with
  | some size => some (if negative then -size else size)
  | none => none

def readReal? (s : String) : Option Float :=
  bareReal? (Text.trim Text.isWhiteSpace s.toList)

def integerDigitLimit : Nat := 4300

def readInt? (s : String) : Option Int :=
  let (negative, body) := takeSign (Text.trim Text.isWhiteSpace s.toList)
  match digitRun false body with
  | (first :: more, []) =>
    let digits := first :: more
    if integerDigitLimit < digits.length then none
    else
      let size : Int := ofDigits digits
      some (if negative then -size else size)
  | _ => none

end Decimal
end CurveSketch
