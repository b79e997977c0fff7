import CurveSketch.Text.Ranges
import CurveSketch.Text.CaseTable

/-!
# CurveSketch.Text.Case

Full case conversion. Lower case is the one mapping that depends on the neighbours: a capital
sigma becomes the final form when a letter stands before it and none after it, case-ignorable
characters not counted. U+0130 is the one character whose lower case has two characters, so
lower case never shortens a text.
-/

namespace CurveSketch
namespace Text

/-- A letter with case, as the final sigma rule counts letters. -/
def isCased (c : Char) : Bool :=
  inRuns casedRuns c.toNat

/-- A character that the final sigma rule looks through. -/
def isIgnorable (c : Char) : Bool :=
  inRuns ignorableRuns c.toNat

def lowerChar (c : Char) : List Char :=
  if c = '\u0130' then ['i', '\u0307'] else [shiftCase lowerShifts c]

/-- A letter follows, case-ignorable characters not counted. -/
def letterFollows (rest : List Char) : Bool :=
  match rest.dropWhile isIgnorable with
  | [] => false
  | c :: _ => isCased c

/-- Whether a letter precedes what follows `c`, given whether one precedes `c`. -/
def letterPrecedes (before : Bool) (c : Char) : Bool :=
  if isIgnorable c then before else isCased c

/-- Lower case of the rest of a text, with `before` saying whether a letter precedes it. -/
def lowerFrom (before : Bool) : List Char → List Char
  | [] => []
  | c :: rest =>
    if c = '\u03a3' then
      (if before && !letterFollows rest then '\u03c2' else '\u03c3') ::
        lowerFrom (letterPrecedes before c) rest
    else
      lowerChar c ++ lowerFrom (letterPrecedes before c) rest

def lower (cs : List Char) : List Char :=
  lowerFrom false cs

def upperChar (c : Char) : List Char :=
  match upperExpansions.find? fun entry => entry.1 == c.toNat with
  | some entry => entry.2.map Char.ofNat
  | none => [shiftCase upperShifts c]

def upper (cs : List Char) : List Char :=
  cs.flatMap upperChar

end Text
end CurveSketch
