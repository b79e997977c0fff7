import CurveSketch.CommandLine.Usage
import CurveSketch.Report
import CurveSketch.Settings

/-!
# CurveSketch.CommandLine.Commands

The commands of the program: the summary of an expression, its value at one place, its curve over
a window. `run` is the whole program; what it comes to is a document or the reason that there is
none.
-/

namespace CurveSketch
namespace CommandLine

inductive Result where
  | document (v : Value)
  | help
  | misused (message : String)
  | failed (message : String)
  | overflow (message : String)

def Result.output : Result → String
  | document v => v.indented ++ "\n"
  | _ => ""

inductive Command where
  | compile
  | evaluate
  | sample
  deriving DecidableEq, Repr

def helpOption : OptionSpec := ⟨["-h", "--help"], .help, false⟩

def modeOption : OptionSpec :=
  ⟨["--lex-mode"], .choice [LexMode.strict.name, LexMode.lenient.name], false⟩

def xOption : OptionSpec := ⟨["--x"], .real, true⟩

def widthOption : OptionSpec := ⟨["--width"], .whole, false⟩

def heightOption : OptionSpec := ⟨["--height"], .whole, false⟩

def xRangeOption : OptionSpec := ⟨["--x-range"], .pair, false⟩

def yRangeOption : OptionSpec := ⟨["--y-range"], .pair, false⟩

def workersOption : OptionSpec := ⟨["--workers"], .whole, false⟩

def pointsOption : OptionSpec := ⟨["--points"], .flag, false⟩

namespace Command

def name : Command → String
  | compile => "compile"
  | evaluate => "evaluate"
  | sample => "sample"

/-- All commands, in the order in which they are listed to users. -/
def all : List Command :=
  [compile, evaluate, sample]

def ofName? (s : String) : Option Command :=
  all.find? fun c => c.name == s

def usage : Command → Usage
  | compile => ⟨[helpOption], "expression", false⟩
  | evaluate => ⟨[helpOption, xOption], "expression", false⟩
  | sample =>
    ⟨[helpOption, widthOption, heightOption, xRangeOption, yRangeOption, workersOption,
      pointsOption], "expression", false⟩

end Command

namespace Parsed

def realOr (p : Parsed) (o : OptionSpec) (fallback : Float) : Float :=
  match p.setting? o.key with
  | some (.real x) => x
  | _ => fallback

def wholeOr (p : Parsed) (o : OptionSpec) (fallback : Int) : Int :=
  match p.setting? o.key with
  | some (.whole n) => n
  | _ => fallback

def rangeOr (p : Parsed) (o : OptionSpec) (fallback : Range) : Range :=
  match p.setting? o.key with
  | some (.pair low high) => ⟨low, high⟩
  | _ => fallback

def has (p : Parsed) (o : OptionSpec) : Bool :=
  (p.setting? o.key).isSome

def modeOr (p : Parsed) (o : OptionSpec) (fallback : LexMode) : LexMode :=
  match p.setting? o.key with
  | some (.word s) => (LexMode.ofName? s).getD fallback
  | _ => fallback

def expression (p : Parsed) : String :=
  p.operands.headD ""

end Parsed

def expressionLimit : Int := Settings.default.maxExpressionLength

def failure (overflow : Bool) (message : String) : Result :=
  if overflow then .overflow message else .failed message

def Command.perform (c : Command) (mode : LexMode) (p : Parsed) : Result :=
  match c with
  | .compile =>
    match Summary.ofText mode expressionLimit p.expression with
    | .ok summary => .document summary.toValue
    | .error e => .failed e.message
  | .evaluate =>
    match Evaluation.ofText mode expressionLimit p.expression (p.realOr xOption 0) with
    | .ok evaluation => .document evaluation.toValue
    | .error fault => .failed fault.message
  | .sample =>
    match Curve.ofValues mode.name expressionLimit (.text p.expression)
        (.int (p.wholeOr widthOption 80)) (.int (p.wholeOr heightOption 40))
        (p.rangeOr xRangeOption .default).toValue (p.rangeOr yRangeOption .default).toValue
        (p.wholeOr workersOption 1) with
    | .ok curve => .document (if p.has pointsOption then curve.toValue else .object curve.outline)
    | .error fault => failure fault.isOverflow fault.message

def usage : Usage := ⟨[helpOption, modeOption], "command", true⟩

def stopped : Stop → Result
  | .help => .help
  | .usage message => .misused message

/-- The command of that name carried out; `p` holds what stands in front of it. -/
def runCommand (p : Parsed) (name : String) (arguments : List String) : Result :=
  match Command.ofName? name with
  | none => .misused ("argument command: " ++ invalidChoice name (Command.all.map Command.name))
  | some c =>
    match c.usage.parse arguments with
    | .error stop => stopped stop
    | .ok q =>
      match p.extras ++ q.extras with
      | [] => c.perform (p.modeOr modeOption .strict) q
      | extras => .misused ("unrecognized arguments: " ++ String.intercalate " " extras)

def run (arguments : List String) : Result :=
  match usage.parse arguments with
  | .error stop => stopped stop
  | .ok p =>
    match p.operands with
    | [] => .misused ("the following arguments are required: " ++ usage.operand)
    | name :: rest => runCommand p name rest

end CommandLine
end CurveSketch
