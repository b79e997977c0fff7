/-!
# CurveSketch.Text.Encoding

Documents whose characters take two or four bytes each. A document starts with characters of
ASCII, so the zero bytes among its first four tell how wide its characters are and in which order
their bytes come. A document without such zeros is in UTF-8.
-/

namespace CurveSketch
namespace Text

/-- How the bytes of a document spell its characters; where a character takes several bytes of
fixed number, the greatest comes first or last. -/
inductive Encoding where
  | utf8
  | utf16 (greatestFirst : Bool)
  | utf32 (greatestFirst : Bool)
  deriving DecidableEq, Repr

def Encoding.ofBytes : List UInt8 → Encoding
  | [a, b] => if a == 0 then .utf16 true else if b == 0 then .utf16 false else .utf8
  | a :: b :: c :: d :: _ =>
    if a == 0 then (if b == 0 then .utf32 true else .utf16 true)
    else if b == 0 then (if c == 0 && d == 0 then .utf32 false else .utf16 false)
    else .utf8
  | _ => .utf8

/-- The number that bytes stand for, the greatest byte first. -/
def ofBytes (bytes : List UInt8) : Nat :=
  bytes.foldl (fun value byte => 256 * value + byte.toNat) 0

def unitOf (greatestFirst : Bool) (bytes : List UInt8) : Nat :=
  ofBytes (if greatestFirst then bytes else bytes.reverse)

/-- The numbers of a text of two bytes each, `none` if one byte is left over. -/
def pairs? (greatestFirst : Bool) : List UInt8 → Option (List Nat)
  | [] => some []
  | a :: b :: rest => (pairs? greatestFirst rest).map (unitOf greatestFirst [a, b] :: ·)
  | [_] => none

/-- The numbers of a text of four bytes each, `none` if bytes are left over. -/
def quads? (greatestFirst : Bool) : List UInt8 → Option (List Nat)
  | [] => some []
  | a :: b :: c :: d :: rest =>
    (quads? greatestFirst rest).map (unitOf greatestFirst [a, b, c, d] :: ·)
  | _ => none

def isHighSurrogate (unit : Nat) : Bool :=
  0xD800 ≤ unit && unit ≤ 0xDBFF

def isLowSurrogate (unit : Nat) : Bool :=
  0xDC00 ≤ unit && unit ≤ 0xDFFF

def joined (high low : Nat) : Nat :=
  0x10000 + (high - 0xD800) * 0x400 + (low - 0xDC00)

/-- The code points of 16-bit units, surrogate pairs put together. -/
def codePoints : List Nat → List Nat
  | high :: low :: rest =>
    if isHighSurrogate high && isLowSurrogate low then joined high low :: codePoints rest
    else high :: codePoints (low :: rest)
  | units => units

/-- The character of a code point; a surrogate is none. -/
def charOf? (point : Nat) : Option Char :=
  if point.isValidChar then some (Char.ofNat point) else none

/-- The characters of a document, `none` if its bytes do not spell any. -/
def decode? (document : String) : Option (List Char) :=
  let bytes := document.toUTF8.toList
  match Encoding.ofBytes bytes with
  | .utf8 => some document.toList
  | .utf16 greatestFirst =>
    match pairs? greatestFirst bytes with
    | some units => (codePoints units).mapM charOf?
    | none => none
  | .utf32 greatestFirst =>
    match quads? greatestFirst bytes with
    | some points => points.mapM charOf?
    | none => none

end Text
end CurveSketch
