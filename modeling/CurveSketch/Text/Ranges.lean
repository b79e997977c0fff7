/-!
# CurveSketch.Text.Ranges

Sets of code points as runs, and case mappings as runs with a common shift: the two shapes that
the Unicode tables of this library have.
-/

namespace CurveSketch
namespace Text

/-- Membership in a set of code points given as runs with both ends included. -/
def inRuns (runs : List (Nat × Nat)) (n : Nat) : Bool :=
  runs.any fun run => run.1 ≤ n && n ≤ run.2

/-- Every `step`-th code point from `first` to `last` maps to itself plus `shift`. -/
structure CaseShift where
  first : Nat
  last : Nat
  step : Nat
  shift : Int

def CaseShift.covers (run : CaseShift) (n : Nat) : Bool :=
  run.first ≤ n && n ≤ run.last && (n - run.first) % run.step == 0

/-- A character under a one-to-one mapping; those outside the table stay as they are. -/
def shiftCase (table : List CaseShift) (c : Char) : Char :=
  match table.find? fun run => run.covers c.toNat with
  | some run => Char.ofNat ((c.toNat : Int) + run.shift).toNat
  | none => c

end Text
end CurveSketch
