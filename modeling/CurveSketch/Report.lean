import CurveSketch.Program.Compile
import CurveSketch.Sampling
import CurveSketch.Value.Writer

/-!
# CurveSketch.Report

The answers of the engine: the summary of a compiled expression, its value at one place, and its
curve over a window. Each is a record with a `toValue` for documents.
-/

namespace CurveSketch

def vocabulary : Value :=
  .object [
    ("variable", .text variableName),
    ("functions", .list (Function.all.map fun f => .text f.name)),
    ("constants", .list ((Value.byName constants).map fun entry => .text entry.1)),
    ("operators", .list (BinaryOp.all.map fun op => .text op.symbol)),
    ("examples", .list (["sin(x)", "x^2 - 4", "tan(x)", "sin(x) / x", "log(x)", "x * sin(x^2)"].map
      .text))]

/-- The characters to be scanned. No token begins with what is kept of a broken text's halves. -/
def textOf : Value → Except LexError String
  | .text s => .ok s
  | .brokenText s => .ok s
  | _ => .error .notText

def tokenizeAt (modeName : String) (limit : Int) (text : Value) : Except LexError (List Token) :=
  match textOf text with
  | .error e => .error e
  | .ok text =>
    match LexMode.ofName modeName with
    | .error e => .error e
    | .ok mode => tokenize mode limit text

def compileAt (modeName : String) (limit : Int) (text : Value) : Except CompileError Program :=
  match textOf text with
  | .error e => .error (.lex e)
  | .ok text =>
    match LexMode.ofName modeName with
    | .error e => .error (.lex e)
    | .ok mode => Program.compile mode limit text

structure Summary where
  tokens : List Token
  program : Program

namespace Summary

def ofText (mode : LexMode) (limit : Int) (text : String) : Except CompileError Summary :=
  match tokenize mode limit text with
  | .error e => .error (.lex e)
  | .ok tokens =>
    match Program.compile mode limit text with
    | .error e => .error e
    | .ok program => .ok ⟨tokens, program⟩

def ofValue (modeName : String) (limit : Int) (text : Value) : Except CompileError Summary :=
  match textOf text with
  | .error e => .error (.lex e)
  | .ok text =>
    match LexMode.ofName modeName with
    | .error e => .error (.lex e)
    | .ok mode => ofText mode limit text

def normalized (s : Summary) : String :=
  Token.normalized s.tokens

def toValue (s : Summary) : Value :=
  .object [
    ("expression", .text s.program.source),
    ("tokens", .list (s.tokens.map Token.toValue)),
    ("normalized", .text s.normalized),
    ("rpn", .text s.program.text),
    ("instructions", .int s.program.length),
    ("uses_variable", .bool s.program.usesVariable)]

end Summary

/-- The value of an expression at one place, or why it is undefined there. -/
structure Evaluation where
  program : Program
  x : Float
  outcome : Except DomainFault Float

inductive EvaluationFault where
  | compile (e : CompileError)
  | argument (fault : RealFault)
  | stack (fault : StackFault)

namespace EvaluationFault

def message : EvaluationFault → String
  | compile e => e.message
  | argument fault => fault.message
  | stack fault => fault.message

end EvaluationFault

namespace Evaluation

/-- The value of a program at `x`. An undefined result is part of the answer. -/
def ofProgram (p : Program) (x : Float) : Except StackFault Evaluation :=
  match p.evaluate x with
  | .ok v => .ok ⟨p, x, .ok v⟩
  | .error (.domain fault) => .ok ⟨p, x, .error fault⟩
  | .error (.stack fault) => .error fault

def ofText (mode : LexMode) (limit : Int) (text : String) (x : Float) :
    Except EvaluationFault Evaluation :=
  match Program.compile mode limit text with
  | .error e => .error (.compile e)
  | .ok p =>
    match ofProgram p x with
    | .ok answer => .ok answer
    | .error fault => .error (.stack fault)

/-- The value of an expression at a place, both of any kind. The expression is compiled first. -/
def ofValues (modeName : String) (limit : Int) (text x : Value) :
    Except EvaluationFault Evaluation :=
  match compileAt modeName limit text with
  | .error e => .error (.compile e)
  | .ok p =>
    match x.toReal with
    | .error fault => .error (.argument fault)
    | .ok x =>
      match ofProgram p x with
      | .ok answer => .ok answer
      | .error fault => .error (.stack fault)

def result? (e : Evaluation) : Option Float :=
  match e.outcome with
  | .ok v => some v
  | .error _ => none

def domainError? (e : Evaluation) : Option String :=
  match e.outcome with
  | .ok _ => none
  | .error fault => some fault.message

def toValue (e : Evaluation) : Value :=
  .object [
    ("expression", .text e.program.source),
    ("rpn", .text e.program.text),
    ("x", .real e.x),
    ("result", match e.result? with | some v => .real v | none => .null),
    ("domain_error", match e.domainError? with | some s => .text s | none => .null)]

end Evaluation

structure Curve where
  program : Program
  width : Nat
  height : Nat
  window : Window
  points : List Sample
  segments : List (List Point)

inductive CurveFault where
  | compile (e : CompileError)
  | sample (fault : SampleFault)

def CurveFault.message : CurveFault → String
  | .compile e => e.message
  | .sample fault => fault.message

def CurveFault.isOverflow : CurveFault → Bool
  | .sample .tooLarge => true
  | .sample (.range .tooLarge) => true
  | _ => false

namespace Curve

def ofProgram (p : Program) (width height : Nat) (w : Window) (workers : Int) :
    Except SampleFault Curve :=
  match samples p width height w workers with
  | .error fault => .error fault
  | .ok points => .ok ⟨p, width, height, w, points, Polyline.split (.whole height) points⟩

/-- The curve of an expression, everything of any kind. The expression is compiled first, then the
window is made, then the sizes are checked. -/
def ofValues (modeName : String) (limit : Int) (text width height xRange yRange : Value)
    (workers : Int) : Except CurveFault Curve :=
  match compileAt modeName limit text with
  | .error e => .error (.compile e)
  | .ok p =>
    match windowOf xRange yRange with
    | .error fault => .error (.sample fault)
    | .ok w =>
      match sizeOf "width" width with
      | .error fault => .error (.sample fault)
      | .ok columns =>
        match sizeOf "height" height with
        | .error fault => .error (.sample fault)
        | .ok rows =>
          match ofProgram p columns rows w workers with
          | .ok curve => .ok curve
          | .error fault => .error (.sample fault)

def gaps (c : Curve) : Nat :=
  c.points.countP Option.isNone

def entryValue : Sample → Value
  | some p => p.toValue
  | none => .null

def segmentsValue (segments : List (List Point)) : Value :=
  .list (segments.map fun line => .list (line.map Point.toValue))

def outline (c : Curve) : List (String × Value) :=
  [("expression", .text c.program.source),
   ("rpn", .text c.program.text),
   ("width", .int c.width),
   ("height", .int c.height),
   ("window", c.window.toValue),
   ("segments", segmentsValue c.segments),
   ("gaps", .int c.gaps)]

def toValue (c : Curve) : Value :=
  .object (("points", .list (c.points.map entryValue)) :: c.outline)

end Curve
end CurveSketch
