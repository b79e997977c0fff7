import CurveSketch.Window
import CurveSketch.Polyline
import CurveSketch.Workers
import CurveSketch.Program.Run

/-!
# CurveSketch.Sampling

A program sampled over a window: one abscissa per pixel column, both edges included. A column
whose run has no result, or whose result falls on no finite row, is a gap; no column affects
another.
-/

namespace CurveSketch

/-- The count of columns that no grid goes beyond. -/
def columnLimit : Int := 9223372036854775808

def isCountable (width : Int) : Bool :=
  -columnLimit ≤ width + 1 && width + 1 ≤ columnLimit

def tooManyColumnsMessage : String := "Maximum allowed size exceeded"

inductive GridFault where
  | divisionByZero
  | tooLarge
  | tooManyColumns
  deriving DecidableEq

def GridFault.message : GridFault → String
  | .divisionByZero => "division by zero"
  | .tooLarge => RealFault.tooLarge.message
  | .tooManyColumns => tooManyColumnsMessage

/-- The abscissas `low + i · step` for `i` from 0 to `width`, with `step` a `width`-th of the
range. -/
def columnInputs (width : Nat) (r : Range) : List Float :=
  let step := (r.high - r.low) / Float.ofNat width
  (List.range (width + 1)).map fun i => r.low + Float.ofNat i * step

/-- The abscissas for a width of either sign; a negative one has none. -/
def grid (width : Int) (r : Range) : Except GridFault (List Float) :=
  if width == 0 then .error .divisionByZero
  else
    match Decimal.ofInt? width with
    | none => .error .tooLarge
    | some _ =>
      if !isCountable width then .error .tooManyColumns
      else if width < 0 then .ok []
      else .ok (columnInputs width.natAbs r)

/-- One column: the point of the program's value at `x`, or a gap. -/
def column (p : Program) (w : Window) (height : Float) (index : Nat) (x : Float) : Sample :=
  match p.evaluate x with
  | .error _ => none
  | .ok y =>
    let row := w.pixelY y height
    if row.isFinite then some ⟨Float.ofNat index, row⟩ else none

inductive SampleFault where
  | size (name : String)
  | notIterable (kind : String)
  | range (fault : RangeFault)
  | tooLarge
  | tooManyColumns

def SampleFault.message : SampleFault → String
  | .size name => s!"{name} must be a positive integer"
  | .notIterable kind => s!"'{kind}' object is not iterable"
  | .range fault => fault.message
  | .tooLarge => RealFault.tooLarge.message
  | .tooManyColumns => tooManyColumnsMessage

def sizeOf (name : String) (v : Value) : Except SampleFault Nat :=
  match v with
  | .int n => if 0 < n then .ok n.natAbs else .error (.size name)
  | _ => .error (.size name)

def samples (p : Program) (width height : Nat) (w : Window) (workers : Int) :
    Except SampleFault (List Sample) :=
  match Decimal.ofInt? width with
  | none => .error .tooLarge
  | some _ =>
    if !isCountable width then .error .tooManyColumns
    else
      let inputs := (columnInputs width w.xRange).zipIdx
      match Decimal.ofInt? height with
      | some rows =>
        .ok (Workers.mapWith workers (fun entry => column p w rows entry.2 entry.1) inputs)
      | none =>
        if inputs.any fun entry => (p.evaluate entry.1).isOk then .error .tooLarge
        else .ok (inputs.map fun _ => none)

def windowOf (x y : Value) : Except SampleFault Window :=
  match x.elements? with
  | none => .error (.notIterable x.kind)
  | some _ =>
    match y.elements? with
    | none => .error (.notIterable y.kind)
    | some _ =>
      match Window.ofValues x y with
      | .ok w => .ok w
      | .error fault => .error (.range fault)

/-- The entries for sizes and ranges of any kind; the sizes are checked first. -/
def sampleAt (p : Program) (width height xRange yRange : Value) (workers : Int) :
    Except SampleFault (Nat × List Sample) :=
  match sizeOf "width" width with
  | .error fault => .error fault
  | .ok columns =>
    match sizeOf "height" height with
    | .error fault => .error fault
    | .ok rows =>
      match windowOf xRange yRange with
      | .error fault => .error fault
      | .ok w =>
        match samples p columns rows w workers with
        | .ok entries => .ok (rows, entries)
        | .error fault => .error fault

theorem length_columnInputs (width : Nat) (r : Range) :
    (columnInputs width r).length = width + 1 := by
  simp [columnInputs]

end CurveSketch
