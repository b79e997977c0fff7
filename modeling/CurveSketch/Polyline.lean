import CurveSketch.Value.Number

/-!
# CurveSketch.Polyline

Sampled points grouped into lines that can be drawn in one stroke. A line ends at a gap and where
the next point is further away in height than the canvas is high, so that a pole is not drawn as
a nearly vertical stroke.
-/

namespace CurveSketch

structure Point where
  x : Float
  y : Float

namespace Point

def toValue (p : Point) : Value :=
  .list [.real p.x, .real p.y]

def breaks (height : Number) (p next : Point) : Bool :=
  height.below (next.y - p.y).abs

end Point

abbrev Sample := Option Point

namespace Polyline

/-- A line under construction, latest point first, put in front of the lines that follow. -/
def close (line : List Point) (following : List (List Point)) : List (List Point) :=
  if line.isEmpty then following else line.reverse :: following

/-- The lines of the remaining entries, given the line under construction, latest point first. -/
def splitFrom (height : Number) : List Point → List Sample → List (List Point)
  | line, [] => close line []
  | line, none :: rest => close line (splitFrom height [] rest)
  | [], some p :: rest => splitFrom height [p] rest
  | last :: line, some p :: rest =>
    if last.breaks height p then close (last :: line) (splitFrom height [p] rest)
    else splitFrom height (p :: last :: line) rest

def split (height : Number) (entries : List Sample) : List (List Point) :=
  splitFrom height [] entries

end Polyline
end CurveSketch
