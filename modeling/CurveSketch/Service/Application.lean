import CurveSketch.Settings

/-!
# CurveSketch.Service.Application

The service as it is configured at start: the limit on bodies, the site's settings, and what the
plugin says about itself. A configuration in which something is missing is completed; one that is
malformed beyond that keeps the service from starting.
-/

namespace CurveSketch

/-- What the plugin says about itself, in the words for a document. -/
def manifest : List (String × Value) := [
  ("title", .text "Function Grapher"),
  ("summary", .text ("Compile expressions of x without eval and sample them into drawable " ++
    "curves with gap detection.")),
  ("category", .text "General Utilities"),
  ("blueprint", .text "function_grapher")]

def pluginName : String := "function_grapher"

def standardConfiguration : Value :=
  .object [
    ("site", .object [
      ("title", .text "Function Grapher"),
      ("max_content_length_mb", .int 1),
      ("log_level", .text "INFO")]),
    ("plugins", .object [
      (pluginName, .object [
        ("summary", .text
          "Compile expressions of x without eval and sample them into drawable curves."),
        ("max_expression_length", .int 256),
        ("lex_mode", .text "strict"),
        ("max_width", .int 4096),
        ("max_height", .int 4096),
        ("sample_workers", .int 1)])])]

inductive StartFault where
  | notObject (kind : String)
  | unknownLevel (name : String)
  | level (fault : PlainFault)
  | limit (fault : WholeFault)
  deriving DecidableEq

def StartFault.message : StartFault → String
  | .notObject kind => (SettingsFault.notObject kind).message
  | .unknownLevel name => s!"Unknown level: {Text.quoted name}"
  | .level fault => fault.message
  | .limit fault => fault.message

structure Application where
  bodyLimit : Int
  /-- Errors that nobody expects leave the service instead of becoming an answer. -/
  testing : Bool
  site : List (String × Value)
  plugins : List (String × Value)
  manifest : List (String × Value)

namespace Application

/-- The limit on bodies where none is configured: one mebibyte. -/
def defaultBodyLimit : Int := 1048576

def logLevels : List String :=
  ["CRITICAL", "FATAL", "ERROR", "WARN", "WARNING", "INFO", "DEBUG", "NOTSET"]

/-- The fields of a part of the configuration; nothing to speak of has none. -/
def part (name : String) (configuration : List (String × Value)) :
    Except StartFault (List (String × Value)) :=
  let v := (Value.lookup? name configuration).getD .null
  match v.orEmptyObject.fields? with
  | some fields => .ok fields
  | none => .error (.notObject v.kind)

/-- A log level must be known by its text, in any case of its letters. -/
def checkLogLevel (site : List (String × Value)) : Except StartFault Unit :=
  match Value.lookup? "log_level" site with
  | none => .ok ()
  | some level =>
    if level.isEmpty then .ok ()
    else
      match level.plain with
      | .error fault => .error (.level fault)
      | .ok name =>
        let name := String.ofList (Text.upper name.toList)
        if logLevels.contains name then .ok () else .error (.unknownLevel name)

/-- The limit on bodies of the site's settings, in mebibytes there. -/
def bodyLimitOf (site : List (String × Value)) : Except StartFault Int :=
  match Value.lookup? "max_content_length_mb" site with
  | none => .ok defaultBodyLimit
  | some v =>
    let bytes :=
      match v.toReal with
      | .ok megabytes => Value.wholeOfReal (megabytes * 1024 * 1024)
      | .error fault => .error (.real fault)
    match bytes with
    | .ok n => .ok n
    | .error fault => if fault.isOverflow then .error (.limit fault) else .ok defaultBodyLimit

/-- What the plugin says about itself, with a summary of the configuration in place of its own. -/
def manifestOf (plugins : List (String × Value)) : Except StartFault (List (String × Value)) :=
  let v := (Value.lookup? pluginName plugins).getD .null
  match v.orEmptyObject.fields? with
  | some fields =>
    match Value.lookup? "summary" fields with
    | some summary =>
      .ok (if summary.isEmpty then CurveSketch.manifest
        else Value.setField "summary" summary CurveSketch.manifest)
    | none => .ok CurveSketch.manifest
  | none => .error (.notObject v.kind)

inductive Variant where
  | configured
  | base
  | testing
  deriving DecidableEq, Repr

/-- The variant of that name; an unknown one changes nothing. -/
def Variant.ofName (name : String) : Variant :=
  if name == "TestingConfig" then .testing
  else if name == "BaseConfig" then .base
  else .configured

/-- The service of a configuration. A named variant has the default limit on bodies. -/
def start (variant : Variant) (configuration : Value) : Except StartFault Application :=
  match configuration.fields? with
  | some fields =>
    match part "site" fields with
    | .error fault => .error fault
    | .ok site =>
      match checkLogLevel site with
      | .error fault => .error fault
      | .ok () =>
        match bodyLimitOf site with
        | .error fault => .error fault
        | .ok limit =>
          match part "plugins" fields with
          | .error fault => .error fault
          | .ok plugins =>
            match manifestOf plugins with
            | .error fault => .error fault
            | .ok manifest =>
              .ok {
                bodyLimit := if variant = .configured then limit else defaultBodyLimit
                testing := variant = .testing
                site := site
                plugins := plugins
                manifest := manifest }
  | none => .error (.notObject configuration.kind)

def withSettings (a : Application) (settings : Value) : Application :=
  { a with plugins := Value.setField pluginName settings a.plugins }

def settings (a : Application) : Except SettingsFault Settings :=
  Settings.ofValue ((Value.lookup? pluginName a.plugins).getD .null)

end Application
end CurveSketch
