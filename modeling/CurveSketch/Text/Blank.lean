/-!
# CurveSketch.Text.Blank

The two sets of blank characters. `isWhiteSpace` is the Unicode property `White_Space`: numbers
and request fields are stripped of it. `isBlank` adds the four information separators
U+001C to U+001F: such characters separate lexemes and are stripped from an expression.
-/

namespace CurveSketch
namespace Text

/-- The Unicode property `White_Space`. -/
def isWhiteSpace (c : Char) : Bool :=
  let n := c.toNat
  (0x9 ≤ n && n ≤ 0xD) || n == 0x20 || n == 0x85 || n == 0xA0 || n == 0x1680 ||
    (0x2000 ≤ n && n ≤ 0x200A) || n == 0x2028 || n == 0x2029 || n == 0x202F || n == 0x205F ||
    n == 0x3000

/-- White space or an information separator. -/
def isBlank (c : Char) : Bool :=
  isWhiteSpace c || (0x1C ≤ c.toNat && c.toNat ≤ 0x1F)

def trim (p : Char → Bool) (cs : List Char) : List Char :=
  ((cs.dropWhile p).reverse.dropWhile p).reverse

def strip (p : Char → Bool) (s : String) : String :=
  String.ofList (trim p s.toList)

theorem isBlank_of_isWhiteSpace {c : Char} (h : isWhiteSpace c = true) : isBlank c = true := by
  simp [isBlank, h]

end Text
end CurveSketch
