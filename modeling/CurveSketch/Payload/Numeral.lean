import CurveSketch.Token.Scan

/-!
# CurveSketch.Payload.Numeral

Numbers that a request gives as text. A text is first read as it stands and, where that fails,
once more without what is needless in it: zeros in front, a zero fraction, single underscores.
Only ASCII digits count.
-/

namespace CurveSketch
namespace Payload

/-- A text without underscores, if it has single ones between other characters. -/
def withoutUnderscores? (cs : List Char) : Option (List Char) :=
  if cs.contains '_' && cs.head? != some '_' && cs.getLast? != some '_' &&
      !(cs.zip (cs.drop 1)).contains ('_', '_') then
    some (cs.filter (· != '_'))
  else none

/-! ### Real numbers -/

/-- Every character of a plain number: digits, letters, signs and points of ASCII. -/
def isPlain (c : Char) : Bool :=
  c.toNat < 0x80 && c != '_'

def plainReal? (cs : List Char) : Option Float :=
  if cs.all isPlain then Decimal.bareReal? cs else none

/-- A real number: white space around it is dropped, or else single underscores in it. -/
def realOfText? (s : String) : Option Float :=
  match plainReal? (Text.trim Text.isWhiteSpace s.toList) with
  | some x => some x
  | none =>
    match withoutUnderscores? s.toList with
    | some cs => plainReal? cs
    | none => none

/-! ### Whole numbers -/

inductive IntFault where
  | malformed
  | tooLong
  deriving DecidableEq

/-- Digits without a needless zero in front. They are counted before it is asked what follows
them, so that too many of them are too long a number whatever comes next. -/
def plainNat : List Char → Except IntFault Nat
  | ['0'] => .ok 0
  | '0' :: _ => .error .malformed
  | cs =>
    let digits := cs.takeWhile Char.isDigit
    if Decimal.integerDigitLimit < digits.length then .error .tooLong
    else if digits.isEmpty || digits.length < cs.length then .error .malformed
    else .ok (Decimal.ofDigits (digits.map Scan.digit))

/-- Digits without a needless zero in front, with an optional minus. -/
def plainInt : List Char → Except IntFault Int
  | '-' :: rest =>
    match plainNat rest with
    | .ok n => .ok (-n)
    | .error fault => .error fault
  | cs =>
    match plainNat cs with
    | .ok n => .ok n
    | .error fault => .error fault

/-- What follows a zero, without further zeros and underscores; `previous` is the character in
front. A zero stays in front of a point and at the end. A minus ends the zeros as a digit does. -/
def afterZero? (previous : Char) : List Char → Option (List Char)
  | [] => some [previous]
  | c :: rest =>
    if c == '0' || c == '_' then afterZero? c rest
    else if c == '.' then some (previous :: c :: rest)
    else if c.isDigit || c == '-' then some (c :: rest)
    else none

/-- A text without the zeros in front of another digit; `none` if no digit starts it. -/
def withoutZeros? : List Char → Option (List Char)
  | [] => none
  | c :: rest =>
    if c == '0' then afterZero? c rest
    else if c.isDigit then some (c :: rest)
    else none

/-- A text without a point and zeros at its end. A point alone is no fraction and stays. -/
def withoutFraction (cs : List Char) : List Char :=
  match cs.dropWhile (· != '.') with
  | '.' :: '0' :: zeros => if zeros.all (· == '0') then cs.takeWhile (· != '.') else cs
  | _ => cs

def tidySize? (cs : List Char) : Option (List Char) :=
  match withoutZeros? cs with
  | some body =>
    let body := withoutFraction body
    some ((withoutUnderscores? body).getD body)
  | none => none

def tidy? : List Char → Option (List Char)
  | '+' :: rest => tidySize? rest
  | '-' :: rest =>
    match tidySize? rest with
    | some body => some ('-' :: body)
    | none => none
  | cs => tidySize? cs

/-- A whole number: white space around it is dropped, and what is needless in it unless it can be
read as it stands. -/
def intOfText (s : String) : Except IntFault Int :=
  let cs := Text.trim Text.isWhiteSpace s.toList
  match plainInt cs with
  | .error .malformed =>
    match tidy? cs with
    | some body => plainInt body
    | none => .error .malformed
  | answer => answer

end Payload
end CurveSketch
