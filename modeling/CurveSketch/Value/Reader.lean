import CurveSketch.Value
import CurveSketch.Decimal.Reading
import CurveSketch.Text.Encoding

/-!
# CurveSketch.Value.Reader

Values from document text. The grammar is that of JSON, with the words `NaN`, `Infinity` and
`-Infinity` as further numbers. A number without point and exponent is whole. Of two fields with
one name the later value counts. A byte order mark at the start is skipped. Half of a surrogate
pair may be written as an escape; it makes the text broken, and an object whose field that names.
Lists and objects inside each other are read to a limited depth.
-/

namespace CurveSketch

inductive Container where
  | array
  | object
  deriving DecidableEq, Repr

def Container.word : Container → String
  | .array => "array"
  | .object => "object"

/-- Why no value is read from a document: it does not follow the grammar, or a container stands
deeper inside others than is read. -/
inductive ReadFault where
  | malformed
  | tooDeep (container : Container)
  deriving DecidableEq

/-- A text that a document spells. It is whole unless half of a surrogate pair is spelled in it. -/
structure Spelling where
  text : String
  whole : Bool

namespace Value

def isGap (c : Char) : Bool :=
  c == ' ' || c == '\t' || c == '\n' || c == '\r'

def skipGap : List Char → List Char
  | [] => []
  | c :: rest => if isGap c then skipGap rest else c :: rest

def hexDigit? (c : Char) : Option Nat :=
  if '0' ≤ c && c ≤ '9' then some (c.toNat - 48)
  else if 'a' ≤ c && c ≤ 'f' then some (c.toNat - 87)
  else if 'A' ≤ c && c ≤ 'F' then some (c.toNat - 55)
  else none

def hexQuad? : List Char → Option (Nat × List Char)
  | a :: b :: c :: d :: rest =>
    match hexDigit? a, hexDigit? b, hexDigit? c, hexDigit? d with
    | some a, some b, some c, some d => some (((a * 16 + b) * 16 + c) * 16 + d, rest)
    | _, _, _, _ => none
  | _ => none

/-- The second half of a surrogate pair, if the text goes on with one. -/
def lowSurrogate? : List Char → Option (Nat × List Char)
  | '\\' :: 'u' :: rest =>
    match hexQuad? rest with
    | some (low, tail) => if Text.isLowSurrogate low then some (low, tail) else none
    | none => none
  | _ => none

/-- The character of a numeric escape whose first four digits have been read; a surrogate without
its partner is none. -/
def escaped (unit : Nat) (rest : List Char) : Option Char × List Char :=
  match if Text.isHighSurrogate unit then lowSurrogate? rest else none with
  | some (low, tail) => (Text.charOf? (Text.joined unit low), tail)
  | none => (Text.charOf? unit, rest)

def shortEscape? : Char → Option Char
  | '"' => some '"'
  | '\\' => some '\\'
  | '/' => some '/'
  | 'b' => some '\x08'
  | 'f' => some '\x0c'
  | 'n' => some '\n'
  | 'r' => some '\r'
  | 't' => some '\t'
  | _ => none

/-- The rest of a quoted text. `done` holds what has been read, latest first, and `whole` tells that
no half of a pair was there. Control characters must be escaped. -/
def readText : Nat → Bool → List Char → List Char → Option (Spelling × List Char)
  | 0, _, _, _ => none
  | fuel + 1, whole, done, cs =>
    match cs with
    | [] => none
    | '"' :: rest => some (⟨String.ofList done.reverse, whole⟩, rest)
    | '\\' :: 'u' :: rest =>
      match hexQuad? rest with
      | some (unit, tail) =>
        let (c, tail) := escaped unit tail
        readText fuel (whole && c.isSome) (c.getD replacement :: done) tail
      | none => none
    | '\\' :: c :: rest =>
      match shortEscape? c with
      | some c => readText fuel whole (c :: done) rest
      | none => none
    | c :: rest => if c.toNat < 0x20 then none else readText fuel whole (c :: done) rest

def ofSpelling (s : Spelling) : Value :=
  if s.whole then text s.text else brokenText s.text

def ofFields (whole : Bool) (fields : List (String × Value)) : Value :=
  if whole then object fields else brokenObject fields

def plainDigits (cs : List Char) : List Nat × List Char :=
  ((cs.takeWhile Char.isDigit).map fun c => c.toNat - 48, cs.dropWhile Char.isDigit)

def exponent? : List Char → Option (Int × List Char)
  | c :: rest =>
    if c == 'e' || c == 'E' then
      let (negative, body) := Decimal.takeSign rest
      match plainDigits body with
      | ([], _) => none
      | (digits, tail) =>
        let size : Int := Decimal.ofDigits digits
        some (if negative then -size else size, tail)
    else none
  | [] => none

def fraction? : List Char → Option (List Nat × List Char)
  | '.' :: rest =>
    match plainDigits rest with
    | ([], _) => none
    | found => some found
  | _ => none

/-- The digits before the point: a zero alone, or digits that start with another one. -/
def wholeDigits? : List Char → Option (List Nat × List Char)
  | '0' :: rest => some ([0], rest)
  | cs =>
    match plainDigits cs with
    | ([], _) => none
    | found => some found

def readNumber (negative : Bool) (cs : List Char) : Option (Value × List Char) :=
  match wholeDigits? cs with
  | none => none
  | some (whole, tail) =>
    let found := fraction? tail
    let (fraction, tail) := found.getD ([], tail)
    let power := exponent? tail
    let (exponent, tail) := power.getD (0, tail)
    if found.isNone && power.isNone then
      if Decimal.integerDigitLimit < whole.length then none
      else
        let size : Int := Decimal.ofDigits whole
        some (int (if negative then -size else size), tail)
    else
      let size := Decimal.Scientific.toFloat
        ⟨Decimal.ofDigits (whole ++ fraction), exponent - fraction.length⟩
      some (real (if negative then -size else size), tail)

def afterWord? : List Char → List Char → Option (List Char)
  | [], cs => some cs
  | _ :: _, [] => none
  | w :: word, c :: cs => if w == c then afterWord? word cs else none

def wordValues : List (String × Value) :=
  [("null", null), ("true", bool true), ("false", bool false),
   ("NaN", real Decimal.notANumber), ("Infinity", real Decimal.infinity),
   ("-Infinity", real (-Decimal.infinity))]

def readWord? (cs : List Char) : Option (Value × List Char) :=
  wordValues.findSome? fun entry =>
    match afterWord? entry.1.toList cs with
    | some tail => some (entry.2, tail)
    | none => none

/-- What has been read in front of the rest of a text, or that nothing could be. -/
def orMalformed {α : Type} : Option α → Except ReadFault α
  | some a => .ok a
  | none => .error .malformed

mutual

/-- A value at the start of a text without a gap in front; `depth` more containers may be opened. -/
def readValue : Nat → Nat → List Char → Except ReadFault (Value × List Char)
  | 0, _, _ => .error .malformed
  | fuel + 1, depth, cs =>
    match cs with
    | [] => .error .malformed
    | '"' :: rest =>
      match readText (rest.length + 1) true [] rest with
      | some (s, tail) => .ok (ofSpelling s, tail)
      | none => .error .malformed
    | '[' :: rest =>
      match depth with
      | 0 => .error (.tooDeep .array)
      | depth + 1 =>
        match skipGap rest with
        | ']' :: tail => .ok (list [], tail)
        | body => readItems fuel depth [] body
    | '\x7b' :: rest =>
      match depth with
      | 0 => .error (.tooDeep .object)
      | depth + 1 =>
        match skipGap rest with
        | '\x7d' :: tail => .ok (object [], tail)
        | body => readFields fuel depth true [] body
    | '-' :: rest =>
      match readWord? cs with
      | some found => .ok found
      | none => orMalformed (readNumber true rest)
    | c :: _ => orMalformed (if c.isDigit then readNumber false cs else readWord? cs)

/-- The items of a list up to the closing bracket; `done` holds them latest first. -/
def readItems : Nat → Nat → List Value → List Char → Except ReadFault (Value × List Char)
  | 0, _, _, _ => .error .malformed
  | fuel + 1, depth, done, cs =>
    match readValue fuel depth cs with
    | .error fault => .error fault
    | .ok (v, tail) =>
      match skipGap tail with
      | ']' :: tail => .ok (list (v :: done).reverse, tail)
      | ',' :: tail => readItems fuel depth (v :: done) (skipGap tail)
      | _ => .error .malformed

/-- The fields of an object up to the closing brace; `done` holds those before them, and `whole`
tells that their names are. -/
def readFields :
    Nat → Nat → Bool → List (String × Value) → List Char → Except ReadFault (Value × List Char)
  | 0, _, _, _, _ => .error .malformed
  | fuel + 1, depth, whole, done, cs =>
    match cs with
    | '"' :: rest =>
      match readText (rest.length + 1) true [] rest with
      | none => .error .malformed
      | some (name, tail) =>
        match skipGap tail with
        | ':' :: tail =>
          match readValue fuel depth (skipGap tail) with
          | .error fault => .error fault
          | .ok (v, tail) =>
            let whole := whole && name.whole
            let done := setField name.text v done
            match skipGap tail with
            | '\x7d' :: tail => .ok (ofFields whole done, tail)
            | ',' :: tail => readFields fuel depth whole done (skipGap tail)
            | _ => .error .malformed
        | _ => .error .malformed
    | _ => .error .malformed

end

/-- The value that the characters of a whole document spell. Each of them is looked at in at most
two steps, one for a value and one for a part of a container. -/
def ofCharacters (cs : List Char) : Except ReadFault Value :=
  match readValue (2 * cs.length + 2) depthLimit (skipGap cs) with
  | .ok (v, tail) => if (skipGap tail).isEmpty then .ok v else .error .malformed
  | .error fault => .error fault

/-- The characters of a document in any encoding; a byte order mark of UTF-8 is none of them. -/
def charactersOf? (document : String) : Option (List Char) :=
  match document.toList with
  | '\ufeff' :: rest => some rest
  | _ => Text.decode? document

def ofDocument (document : String) : Except ReadFault Value :=
  match charactersOf? document with
  | some cs => ofCharacters cs
  | none => .error .malformed

end Value
end CurveSketch
