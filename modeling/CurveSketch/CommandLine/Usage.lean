import CurveSketch.CommandLine.Words

/-!
# CurveSketch.CommandLine.Usage

Reading the arguments of a command line from the left. An option takes its value from what is
attached to it or from the next argument, which must be an operand. There is one operand; where
it is the name of a command, everything behind it belongs to the command. A `--` next to the
operand belongs to it. What nobody expects is kept, since it is reported last of all.
-/

namespace CurveSketch
namespace CommandLine

/-- What may stand on a command line: the options, the name of the operand, and whether the
operand takes everything behind it. -/
structure Usage where
  options : List OptionSpec
  operand : String
  takesRest : Bool

inductive Expecting where
  | anything
  | valueOf (o : OptionSpec)
  | afterOperand
  | afterSeparator

/-- What has been read, all latest first: the settings by the names of their options, the operand
with what it takes, and what nobody expects. -/
structure Progress where
  settings : List (String × Setting)
  operands : List String
  extras : List String
  expecting : Expecting

structure Parsed where
  settings : List (String × Setting)
  operands : List String
  extras : List String

def Parsed.setting? (p : Parsed) (name : String) : Option Setting :=
  match p.settings.find? fun entry => entry.1 == name with
  | some entry => some entry.2
  | none => none

namespace Progress

def start : Progress := ⟨[], [], [], .anything⟩

def set (p : Progress) (o : OptionSpec) (s : Setting) : Progress :=
  { p with settings := (o.key, s) :: p.settings, expecting := .anything }

def setFrom (p : Progress) (o : OptionSpec) (value : String) : Except Stop Progress :=
  match o.read value with
  | .ok s => .ok (p.set o s)
  | .error stop => .error stop

def skip (p : Progress) (text : String) : Progress :=
  { p with extras := text :: p.extras, expecting := .anything }

/-- Letters attached to an option of one letter that expects nothing, the help option: they are
further options of one letter. -/
def cluster {α : Type} (o : OptionSpec) : List Char → Except Stop α
  | [] => .error .help
  | c :: rest =>
    if c == '-' then o.ignored (String.ofList (c :: rest))
    else if c == 'h' then
      match rest with
      | '=' :: value => o.ignored (String.ofList value)
      | _ => cluster o rest
    else .error .help

def attached (p : Progress) (o : OptionSpec) (name : String) (a : Attached) :
    Except Stop Progress :=
  if o.takesValue then p.setFrom o a.value
  else if name.toList.take 2 != ['-', '-'] && a.value != "" && !a.afterEquals then
    cluster o a.value.toList
  else o.ignored a.value

def bare (p : Progress) (o : OptionSpec) : Except Stop Progress :=
  match o.kind with
  | .help => .error .help
  | .flag => .ok (p.set o .on)
  | _ => .ok { p with expecting := .valueOf o }

def operand (p : Progress) (u : Usage) (text : String) : Progress :=
  match p.operands, p.expecting with
  | [], .afterSeparator =>
    { p with
      operands := if u.takesRest then [text, "--"] else [text]
      expecting := .anything }
  | [], _ => { p with operands := [text], expecting := .afterOperand }
  | _ :: _, _ => p.skip text

def separator (p : Progress) : Progress :=
  match p.operands, p.expecting with
  | [], _ => { p with expecting := .afterSeparator }
  | _ :: _, .afterOperand => { p with expecting := .anything }
  | _ :: _, _ => p.skip "--"

def step (u : Usage) (p : Progress) (w : Word) : Except Stop Progress :=
  if u.takesRest && !p.operands.isEmpty then .ok { p with operands := w.text :: p.operands }
  else
    match p.expecting, w.role with
    | .valueOf o, .operand => p.setFrom o w.text
    | .valueOf o, _ => o.mistake "expected one argument"
    | _, .operand => .ok (p.operand u w.text)
    | _, .separator => .ok p.separator
    | _, .known o name (some a) => p.attached o name a
    | _, .known o _ none => p.bare o
    | _, .unknown => .ok (p.skip w.text)

def steps (u : Usage) (p : Progress) : List Word → Except Stop Progress
  | [] => .ok p
  | w :: rest =>
    match step u p w with
    | .ok next => steps u next rest
    | .error stop => .error stop

def finish (p : Progress) : Except Stop Parsed :=
  match p.expecting with
  | .valueOf o => o.mistake "expected one argument"
  | .afterSeparator => .ok ⟨p.settings, p.operands.reverse, (p.skip "--").extras.reverse⟩
  | _ => .ok ⟨p.settings, p.operands.reverse, p.extras.reverse⟩

end Progress

namespace Usage

def missing (u : Usage) (p : Parsed) : List String :=
  (if p.operands.isEmpty then [u.operand] else []) ++
    (u.options.filter fun o => o.required && (p.setting? o.key).isNone).map OptionSpec.title

def parse (u : Usage) (arguments : List String) : Except Stop Parsed :=
  match words u.options arguments with
  | .error stop => .error stop
  | .ok found =>
    match Progress.steps u .start found with
    | .error stop => .error stop
    | .ok progress =>
      match progress.finish with
      | .error stop => .error stop
      | .ok parsed =>
        match u.missing parsed with
        | [] => .ok parsed
        | names =>
          .error (.usage
            ("the following arguments are required: " ++ String.intercalate ", " names))

end Usage
end CommandLine
end CurveSketch
