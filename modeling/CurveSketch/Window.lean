import CurveSketch.Value.Number

/-!
# CurveSketch.Window

The visible part of the plane: a range on each axis. Ranges are read from values of any kind and
accepted when they are two finite doubles in increasing order; zooming scales both ranges about
their centres and is refused when a scaled range is no range any more. The pixel transforms map
the lower left corner of the window to the lower left corner of the canvas, with `y` growing
upwards in the window and downwards on the canvas.
-/

namespace CurveSketch

inductive Axis where
  | x
  | y
  deriving DecidableEq, Repr

def Axis.rangeName : Axis → String
  | .x => "x_range"
  | .y => "y_range"

inductive RangeFault where
  | notPair (axis : Axis)
  | notFinite (axis : Axis)
  | notIncreasing (axis : Axis)
  | tooLarge
  deriving DecidableEq

def RangeFault.message : RangeFault → String
  | .notPair axis => s!"{axis.rangeName} must be a pair of numbers"
  | .notFinite axis => s!"{axis.rangeName} bounds must be finite"
  | .notIncreasing axis => s!"{axis.rangeName} minimum must be less than its maximum"
  | .tooLarge => RealFault.tooLarge.message

/-- A bound exists but is no double, as opposed to the value being no range. -/
def RangeFault.isOverflow : RangeFault → Bool
  | .tooLarge => true
  | _ => false

structure Range where
  low : Float
  high : Float

namespace Range

def default : Range := ⟨-10, 10⟩

def Valid (r : Range) : Prop :=
  r.low.isFinite = true ∧ r.high.isFinite = true ∧ r.low < r.high

def ofBounds (axis : Axis) (low high : Float) : Except RangeFault Range :=
  if low.isFinite && high.isFinite then
    if low < high then .ok ⟨low, high⟩ else .error (.notIncreasing axis)
  else .error (.notFinite axis)

/-- The values as doubles, up to the first that is none. -/
def reals : List Value → Except RealFault (List Float)
  | [] => .ok []
  | v :: rest =>
    match v.toReal with
    | .error fault => .error fault
    | .ok x =>
      match reals rest with
      | .error fault => .error fault
      | .ok xs => .ok (x :: xs)

/-- The range whose bounds are the items. A third item is looked at before the number of items is
found wrong, later ones are not. -/
def ofItems (axis : Axis) (items : List Value) : Except RangeFault Range :=
  match reals (items.take 3) with
  | .ok [low, high] => ofBounds axis low high
  | .error .tooLarge => .error .tooLarge
  | _ => .error (.notPair axis)

def ofValue (axis : Axis) (v : Value) : Except RangeFault Range :=
  match v.elements? with
  | some items => ofItems axis items
  | none => .error (.notPair axis)

def scale (r : Range) (factor : Float) : Float × Float :=
  let centre := (r.low + r.high) / 2
  let half := (r.high - r.low) / 2 * factor
  (centre - half, centre + half)

def zoom (axis : Axis) (r : Range) (factor : Float) : Except RangeFault Range :=
  ofBounds axis (r.scale factor).1 (r.scale factor).2

def toValue (r : Range) : Value :=
  .list [.real r.low, .real r.high]

end Range

structure Window where
  xRange : Range
  yRange : Range

inductive PixelFault where
  | divisionByZero
  | size (fault : RealFault)
  deriving DecidableEq

def PixelFault.message : PixelFault → String
  | .divisionByZero => "float division by zero"
  | .size fault => fault.message

/-- The part of the range that lies below `x`. -/
def Range.share (r : Range) (x : Float) : Except PixelFault Float :=
  if r.high - r.low == 0 then .error .divisionByZero else .ok ((x - r.low) / (r.high - r.low))

inductive ZoomFault where
  | factor (fault : RealFault)
  | notPositive
  | range (fault : RangeFault)

def ZoomFault.message : ZoomFault → String
  | .factor fault => fault.message
  | .notPositive => "Zoom factor must be a positive number"
  | .range fault => fault.message

namespace Window

def zoomInFactor : Float := 0.8

def zoomOutFactor : Float := 1.2

def default : Window := ⟨Range.default, Range.default⟩

def Valid (w : Window) : Prop :=
  w.xRange.Valid ∧ w.yRange.Valid

/-- The window of two ranges of any kind; the first problem on the x axis comes first. -/
def ofValues (x y : Value) : Except RangeFault Window :=
  match Range.ofValue .x x with
  | .error fault => .error fault
  | .ok xRange =>
    match Range.ofValue .y y with
    | .error fault => .error fault
    | .ok yRange => .ok ⟨xRange, yRange⟩

/-- Both ranges scaled about their centres; a factor below 1 zooms in. -/
def zoom (w : Window) (factor : Float) : Except ZoomFault Window :=
  if factor.isFinite && 0 < factor then
    match w.xRange.zoom .x factor with
    | .error fault => .error (.range fault)
    | .ok xRange =>
      match w.yRange.zoom .y factor with
      | .error fault => .error (.range fault)
      | .ok yRange => .ok ⟨xRange, yRange⟩
  else .error .notPositive

def zoomBy (w : Window) (factor : Value) : Except ZoomFault Window :=
  match factor.toReal with
  | .error fault => .error (.factor fault)
  | .ok factor => w.zoom factor

def pixelX (w : Window) (x width : Float) : Float :=
  (x - w.xRange.low) / (w.xRange.high - w.xRange.low) * width

def pixelY (w : Window) (y height : Float) : Float :=
  height - (y - w.yRange.low) / (w.yRange.high - w.yRange.low) * height

/-- The column of `x` on a canvas of any width. The width is looked at after the division. -/
def placeX (w : Window) (x : Float) (width : Number) : Except PixelFault Float :=
  match w.xRange.share x with
  | .error fault => .error fault
  | .ok share =>
    match width.toReal with
    | .error fault => .error (.size fault)
    | .ok columns => .ok (share * columns)

def placeY (w : Window) (y : Float) (height : Number) : Except PixelFault Float :=
  match w.yRange.share y with
  | .error fault => .error fault
  | .ok share =>
    match height.toReal with
    | .error fault => .error (.size fault)
    | .ok rows => .ok (rows - share * rows)

def isDefault (w : Window) : Bool :=
  w.xRange.low == default.xRange.low && w.xRange.high == default.xRange.high &&
    w.yRange.low == default.yRange.low && w.yRange.high == default.yRange.high

def toValue (w : Window) : Value :=
  .object [("x_range", w.xRange.toValue), ("y_range", w.yRange.toValue)]

end Window

namespace Window

inductive Action where
  | construct (x y : Value)
  | zoom (factor : Value)
  | zoomIn
  | zoomOut
  | reset

inductive ActionFault where
  | range (fault : RangeFault)
  | zoom (fault : ZoomFault)

def ActionFault.message : ActionFault → String
  | .range fault => fault.message
  | .zoom fault => fault.message

def act (w : Window) : Action → Except ActionFault Window
  | .construct x y =>
    match ofValues x y with
    | .ok next => .ok next
    | .error fault => .error (.range fault)
  | .zoom factor =>
    match w.zoomBy factor with
    | .ok next => .ok next
    | .error fault => .error (.zoom fault)
  | .zoomIn =>
    match w.zoom zoomInFactor with
    | .ok next => .ok next
    | .error fault => .error (.zoom fault)
  | .zoomOut =>
    match w.zoom zoomOutFactor with
    | .ok next => .ok next
    | .error fault => .error (.zoom fault)
  | .reset => .ok default

/-- The window that a session goes on with after an action: the old one if the action failed. -/
def after (w : Window) (a : Action) : Window :=
  match w.act a with
  | .ok next => next
  | .error _ => w

def session (actions : List Action) : Window :=
  actions.foldl after default

end Window
end CurveSketch
