import CurveSketch.Value
import CurveSketch.Decimal.Reading
import CurveSketch.Text.Quoted

/-!
# CurveSketch.Value.Plain

A value as plain text, the way a message names it: a text stands for itself at the top and
between quotes inside a list or an object. Not every value has such a text: whole numbers are
written up to a number of digits, and lists and objects inside each other to a limited depth. The
first part that cannot be written is the reason that nothing is.
-/

namespace CurveSketch

inductive PlainFault where
  | tooManyDigits
  | tooDeep
  deriving DecidableEq

def PlainFault.message : PlainFault → String
  | .tooManyDigits =>
    s!"Exceeds the limit ({Decimal.integerDigitLimit} digits) for integer string conversion; " ++
      "use sys.set_int_max_str_digits() to increase the limit"
  | .tooDeep => "maximum recursion depth exceeded while getting the repr of an object"

namespace Value

def shownInt (n : Int) : Except PlainFault String :=
  if Decimal.integerDigitLimit < Decimal.digitCount n.natAbs then .error .tooManyDigits
  else .ok (toString n)

def shownField (name : String) : Except PlainFault String → Except PlainFault String
  | .ok s => .ok (Text.quoted name ++ ": " ++ s)
  | .error fault => .error fault

/-- Parts between brackets, if there are all of them. -/
def enclosed (left right : String) : Except PlainFault (List String) → Except PlainFault String
  | .ok parts => .ok (left ++ String.intercalate ", " parts ++ right)
  | .error fault => .error fault

/-- A value inside another; `room` values may still stand inside each other, this one among them. -/
def shown : Nat → Value → Except PlainFault String
  | 0, _ => .error .tooDeep
  | _ + 1, null => .ok "None"
  | _ + 1, bool b => .ok (if b then "True" else "False")
  | _ + 1, int n => shownInt n
  | _ + 1, real x => .ok (Decimal.Layout.exact.render x)
  | _ + 1, text s => .ok (Text.quoted s)
  | _ + 1, brokenText s => .ok (Text.quoted s)
  | room + 1, list items => enclosed "[" "]" (items.mapM (shown room))
  | room + 1, object fields =>
    enclosed "\x7b" "\x7d" (fields.mapM fun field => shownField field.1 (shown room field.2))
  | room + 1, brokenObject fields =>
    enclosed "\x7b" "\x7d" (fields.mapM fun field => shownField field.1 (shown room field.2))

def plain : Value → Except PlainFault String
  | text s => .ok s
  | brokenText s => .ok s
  | v => shown depthLimit v

end Value
end CurveSketch
