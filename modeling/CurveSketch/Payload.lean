import CurveSketch.Payload.Numeral
import CurveSketch.Window

/-!
# CurveSketch.Payload

Request bodies, checked. A body is an object with a fixed set of fields; each field has a reader
that turns a value of any kind into what the request needs or says what is wrong with it. All
problems of a body are reported together: first those of the expected fields in their order, then
the fields that nobody expects.
-/

namespace CurveSketch

inductive Place where
  | field (name : String)
  | item (index : Nat)
  deriving DecidableEq

structure Issue where
  place : List Place
  message : String
  kind : String
  deriving DecidableEq

/-- What is read from a body, or everything that is wrong with it. -/
abbrev Checked (α : Type) := Except (List Issue) α

def Place.toValue : Place → Value
  | .field name => .text name
  | .item index => .int index

def Issue.toValue (i : Issue) : Value :=
  .object [
    ("loc", .list (i.place.map Place.toValue)),
    ("msg", .text i.message),
    ("type", .text i.kind)]

namespace Payload

def issue {α : Type} (kind message : String) : Checked α :=
  .error [⟨[], message, kind⟩]

def missing {α : Type} : Checked α :=
  issue "missing" "Field required"

def within {α : Type} (place : Place) (r : Checked α) : Checked α :=
  match r with
  | .ok a => .ok a
  | .error issues => .error (issues.map fun i => { i with place := place :: i.place })

def issues {α : Type} : Checked α → List Issue
  | .ok _ => []
  | .error found => found

/-! ### Readers -/

/-- The problem of a text that is needed but has half of a surrogate pair in it. -/
def notCharacters {α : Type} : Checked α :=
  issue "string_unicode"
    "Input should be a valid string, unable to parse raw data as a unicode string"

def readText : Value → Checked String
  | .text s => .ok (Text.strip Text.isWhiteSpace s)
  | .brokenText _ => notCharacters
  | _ => issue "string_type" "Input should be a valid string"

def readWord {α : Type} (first second : String × α) : Value → Checked (Option α)
  | .null => .ok none
  | .text s =>
    if s == first.1 then .ok (some first.2)
    else if s == second.1 then .ok (some second.2)
    else wrong
  | .brokenText _ => notCharacters
  | _ => wrong
where
  wrong : Checked (Option α) :=
    issue "literal_error" s!"Input should be '{first.1}' or '{second.1}'"

def readReal : Value → Checked Float
  | .bool b => .ok (if b then 1 else 0)
  | .int n =>
    match Decimal.ofInt? n with
    | some x => .ok x
    | none => issue "float_type" "Input should be a valid number"
  | .real x => .ok x
  | .text s =>
    match realOfText? s with
    | some x => .ok x
    | none =>
      issue "float_parsing" "Input should be a valid number, unable to parse string as a number"
  | .brokenText _ => notCharacters
  | _ => issue "float_type" "Input should be a valid number"

/-- The doubles below this size that are whole are whole numbers of 64 bits. -/
def wholeLimit : Float := 9223372036854775808

def readInt : Value → Checked Int
  | .bool b => .ok (if b then 1 else 0)
  | .int n => .ok n
  | .real x =>
    match Decimal.truncate? x with
    | none => issue "finite_number" "Input should be a finite number"
    | some n =>
      if Decimal.exceedsInt x n || Decimal.exceedsInt (-x) (-n) then
        issue "int_from_float"
          "Input should be a valid integer, got a number with a fractional part"
      else if x.abs < wholeLimit then .ok n
      else oversized
  | .text s =>
    match intOfText s with
    | .ok n => .ok n
    | .error .tooLong => oversized
    | .error .malformed =>
      issue "int_parsing"
        "Input should be a valid integer, unable to parse string as an integer"
  | .brokenText _ => notCharacters
  | _ => issue "int_type" "Input should be a valid integer"
where
  oversized : Checked Int :=
    issue "int_parsing_size"
      "Unable to parse input string as an integer, exceeded maximum size"

def notPositive {α : Type} : Checked α :=
  issue "greater_than" "Input should be greater than 0"

def readSize (v : Value) : Checked Nat :=
  match readInt v with
  | .error found => .error found
  | .ok n => if 0 < n then .ok n.natAbs else notPositive

def readFactor : Value → Checked (Option Float)
  | .null => .ok none
  | v =>
    match readReal v with
    | .error found => .error found
    | .ok x => if 0 < x then .ok (some x) else notPositive

def readItem (index : Nat) (items : List Value) : Checked Float :=
  within (.item index) <|
    match items[index]? with
    | some v => readReal v
    | none => missing

def readPair : Value → Checked (Float × Float)
  | .list items =>
    if 2 < items.length then
      issue "too_long" s!"Tuple should have at most 2 items after validation, not {items.length}"
    else
      match readItem 0 items, readItem 1 items with
      | .ok low, .ok high => .ok (low, high)
      | low, high => .error (issues low ++ issues high)
  | _ => issue "tuple_type" "Input should be a valid tuple"

/-! ### Fields -/

def required {α : Type} (name : String) (read : Value → Checked α)
    (fields : List (String × Value)) : Checked α :=
  within (.field name) <|
    match Value.lookup? name fields with
    | some v => read v
    | none => missing

def optional {α : Type} (name : String) (fallback : α) (read : Value → Checked α)
    (fields : List (String × Value)) : Checked α :=
  within (.field name) <|
    match Value.lookup? name fields with
    | some v => read v
    | none => .ok fallback

def unexpected (names : List String) (fields : List (String × Value)) : List Issue :=
  (fields.filter fun field => !names.contains field.1).map fun field =>
    ⟨[.field field.1], "Extra inputs are not permitted", "extra_forbidden"⟩

/-- The fields of a body. Nothing to speak of counts as a body without fields. A field whose name
is no text of characters is the only problem reported, without a place. -/
def fieldsOf (model : String) (body : Value) : Checked (List (String × Value)) :=
  match body.orEmptyObject with
  | .object fields => .ok fields
  | .brokenObject _ => notCharacters
  | _ =>
    issue "model_type" s!"Input should be a valid dictionary or instance of {model}"

end Payload

open Payload

/-- An expression and how to scan it; the service's own mode where none is asked for. -/
structure ExpressionRequest where
  expression : String
  lexMode : Option LexMode

structure EvaluateRequest extends ExpressionRequest where
  x : Float

structure SampleRequest extends ExpressionRequest where
  width : Nat
  height : Nat
  xRange : Float × Float
  yRange : Float × Float

inductive Direction where
  | inward
  | outward
  deriving DecidableEq, Repr

structure ZoomRequest where
  xRange : Float × Float
  yRange : Float × Float
  factor : Option Float
  direction : Option Direction

namespace Payload

def defaultPair : Float × Float :=
  (Range.default.low, Range.default.high)

def expressionField (fields : List (String × Value)) : Checked String :=
  required "expression" readText fields

def lexModeField (fields : List (String × Value)) : Checked (Option LexMode) :=
  optional "lex_mode" none
    (readWord (LexMode.strict.name, .strict) (LexMode.lenient.name, .lenient)) fields

def pairField (axis : Axis) (fields : List (String × Value)) : Checked (Float × Float) :=
  optional axis.rangeName defaultPair readPair fields

end Payload

def ExpressionRequest.ofValue (body : Value) : Checked ExpressionRequest :=
  match fieldsOf "ExpressionPayload" body with
  | .error found => .error found
  | .ok fields =>
    match expressionField fields, lexModeField fields,
        unexpected ["expression", "lex_mode"] fields with
    | .ok expression, .ok lexMode, [] => .ok ⟨expression, lexMode⟩
    | expression, lexMode, extra => .error (issues expression ++ issues lexMode ++ extra)

def EvaluateRequest.ofValue (body : Value) : Checked EvaluateRequest :=
  match fieldsOf "EvaluatePayload" body with
  | .error found => .error found
  | .ok fields =>
    match expressionField fields, lexModeField fields, required "x" readReal fields,
        unexpected ["expression", "lex_mode", "x"] fields with
    | .ok expression, .ok lexMode, .ok x, [] => .ok ⟨⟨expression, lexMode⟩, x⟩
    | expression, lexMode, x, extra =>
      .error (issues expression ++ issues lexMode ++ issues x ++ extra)

def SampleRequest.ofValue (body : Value) : Checked SampleRequest :=
  match fieldsOf "SamplePayload" body with
  | .error found => .error found
  | .ok fields =>
    match expressionField fields, lexModeField fields, required "width" readSize fields,
        required "height" readSize fields, pairField .x fields, pairField .y fields,
        unexpected ["expression", "lex_mode", "width", "height", "x_range", "y_range"] fields with
    | .ok expression, .ok lexMode, .ok width, .ok height, .ok xRange, .ok yRange, [] =>
      .ok ⟨⟨expression, lexMode⟩, width, height, xRange, yRange⟩
    | expression, lexMode, width, height, xRange, yRange, extra =>
      .error (issues expression ++ issues lexMode ++ issues width ++ issues height ++
        issues xRange ++ issues yRange ++ extra)

def ZoomRequest.ofValue (body : Value) : Checked ZoomRequest :=
  match fieldsOf "ZoomPayload" body with
  | .error found => .error found
  | .ok fields =>
    match pairField .x fields, pairField .y fields, optional "factor" none readFactor fields,
        optional "direction" none (readWord ("in", .inward) ("out", .outward)) fields,
        unexpected ["x_range", "y_range", "factor", "direction"] fields with
    | .ok xRange, .ok yRange, .ok factor, .ok direction, [] =>
      .ok ⟨xRange, yRange, factor, direction⟩
    | xRange, yRange, factor, direction, extra =>
      .error (issues xRange ++ issues yRange ++ issues factor ++ issues direction ++ extra)

end CurveSketch
