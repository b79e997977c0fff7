import CurveSketch.CommandLine.Options
import CurveSketch.Text.Digit

/-!
# CurveSketch.CommandLine.Words

The arguments of a command line, each told apart as an operand, an option or the separator `--`.
An argument that starts with a minus is an option unless it is a lone minus, a negative number or
has a space; after `--` everything is an operand. A long option may be cut short as long as one
option alone starts that way. All arguments are told apart before any is used, so an ambiguous
option is found before every other mistake.
-/

namespace CurveSketch
namespace CommandLine

/-- What is attached to an option in the same argument: behind a `=`, or right behind a name of
one letter. -/
structure Attached where
  afterEquals : Bool
  value : String

inductive Role where
  | operand
  | separator
  | known (o : OptionSpec) (name : String) (attached : Option Attached)
  | unknown

structure Word where
  text : String
  role : Role

def splitEquals (cs : List Char) : List Char × Option (List Char) :=
  match cs.dropWhile (· != '=') with
  | [] => (cs, none)
  | _ :: value => (cs.takeWhile (· != '='), some value)

def namesOf (options : List OptionSpec) : List (String × OptionSpec) :=
  options.flatMap fun o => o.names.map fun name => (name, o)

def withName? (options : List OptionSpec) (name : String) : Option OptionSpec :=
  match (namesOf options).find? fun entry => entry.1 == name with
  | some entry => some entry.2
  | none => none

/-- The options that an argument may mean although it is no exact name: those that start like it,
or a name of one letter with something attached. -/
def candidates (options : List OptionSpec) (cs : List Char) :
    List (String × OptionSpec × Option Attached) :=
  match cs with
  | '-' :: '-' :: _ =>
    let (name, value) := splitEquals cs
    let attached := value.map fun v => ⟨true, String.ofList v⟩
    ((namesOf options).filter fun entry => name.isPrefixOf entry.1.toList).map
      fun entry => (entry.1, entry.2, attached)
  | _ =>
    (namesOf options).filterMap fun entry =>
      if entry.1.toList == cs.take 2 then
        some (entry.1, entry.2, some ⟨false, String.ofList (cs.drop 2)⟩)
      else if cs.isPrefixOf entry.1.toList then some (entry.1, entry.2, none)
      else none

/-- A minus and digits, with at most one point that digits follow; a line end may follow. -/
def isNegativeNumber (cs : List Char) : Bool :=
  let isDigit (c : Char) := (Text.digitValue? c).isSome
  match cs with
  | '-' :: body =>
    let body := if body.getLast? == some '\n' then body.dropLast else body
    match body.dropWhile isDigit with
    | [] => !body.isEmpty
    | '.' :: fraction => !fraction.isEmpty && fraction.all isDigit
    | _ => false
  | _ => false

def roleOf (options : List OptionSpec) (argument : String) : Except Stop Role :=
  match argument.toList with
  | '-' :: c :: rest =>
    let cs := '-' :: c :: rest
    match withName? options argument with
    | some o => .ok (.known o argument none)
    | none =>
      let (name, value) := splitEquals cs
      match value, withName? options (String.ofList name) with
      | some v, some o => .ok (.known o (String.ofList name) (some ⟨true, String.ofList v⟩))
      | _, _ =>
        match candidates options cs with
        | [(name, o, attached)] => .ok (.known o name attached)
        | [] => .ok (if isNegativeNumber cs || cs.contains ' ' then .operand else .unknown)
        | found =>
          let names := String.intercalate ", " (found.map fun entry => entry.1)
          .error (.usage s!"ambiguous option: {argument} could match {names}")
  | _ => .ok .operand

def words (options : List OptionSpec) : List String → Except Stop (List Word)
  | [] => .ok []
  | argument :: rest =>
    if argument == "--" then .ok (⟨argument, .separator⟩ :: rest.map fun text => ⟨text, .operand⟩)
    else
      match roleOf options argument with
      | .error stop => .error stop
      | .ok role =>
        match words options rest with
        | .error stop => .error stop
        | .ok found => .ok (⟨argument, role⟩ :: found)

end CommandLine
end CurveSketch
