import CurveSketch.Decimal.Reading
import CurveSketch.Text.Quoted

/-!
# CurveSketch.CommandLine.Options

The options of a command line and the values they take. A value that an option cannot use is a
mistake in the use of the program, told with the option's names in front.
-/

namespace CurveSketch
namespace CommandLine

inductive OptionKind where
  | help
  | flag
  | choice (words : List String)
  | real
  | whole
  | pair

/-- An option: its names, what it expects, and whether it must be given. -/
structure OptionSpec where
  names : List String
  kind : OptionKind
  required : Bool := false

inductive Setting where
  | on
  | word (s : String)
  | real (x : Float)
  | whole (n : Int)
  | pair (low high : Float)

/-- Why a command line is not carried out: it asks for help, or it is not understood. -/
inductive Stop where
  | help
  | usage (message : String)
  deriving DecidableEq

def choices (words : List String) : String :=
  String.intercalate ", " (words.map Text.quoted)

def invalidChoice (word : String) (words : List String) : String :=
  s!"invalid choice: {Text.quoted word} (choose from {choices words})"

def pairOf? (s : String) : Option (Float × Float) :=
  match s.splitOn "," with
  | [low, high] =>
    match Decimal.readReal? low, Decimal.readReal? high with
    | some low, some high => some (low, high)
    | _, _ => none
  | _ => none

namespace OptionSpec

def key (o : OptionSpec) : String :=
  o.names.getLastD ""

def title (o : OptionSpec) : String :=
  String.intercalate "/" o.names

def takesValue (o : OptionSpec) : Bool :=
  match o.kind with
  | .help => false
  | .flag => false
  | _ => true

def mistake {α : Type} (o : OptionSpec) (message : String) : Except Stop α :=
  .error (.usage s!"argument {o.title}: {message}")

def ignored {α : Type} (o : OptionSpec) (value : String) : Except Stop α :=
  o.mistake s!"ignored explicit argument {Text.quoted value}"

def read (o : OptionSpec) (s : String) : Except Stop Setting :=
  match o.kind with
  | .help => .ok .on
  | .flag => .ok .on
  | .choice words => if words.contains s then .ok (.word s) else o.mistake (invalidChoice s words)
  | .real =>
    match Decimal.readReal? s with
    | some x => .ok (.real x)
    | none => o.mistake s!"invalid float value: {Text.quoted s}"
  | .whole =>
    match Decimal.readInt? s with
    | some n => .ok (.whole n)
    | none => o.mistake s!"invalid int value: {Text.quoted s}"
  | .pair =>
    match pairOf? s with
    | some (low, high) => .ok (.pair low high)
    | none => o.mistake s!"Expected MIN,MAX but got '{s}'"

end OptionSpec
end CommandLine
end CurveSketch
