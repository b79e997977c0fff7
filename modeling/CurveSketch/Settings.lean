import CurveSketch.Token.Scan
import CurveSketch.Value.Number
import CurveSketch.Value.Plain

/-!
# CurveSketch.Settings

The limits of the service. They are read from a configuration object in which anything may be
missing or malformed; such a field gets its default. A number out of range is not repaired: it is
an error, and so are a mode that cannot be written as text and a configuration that is no object.
-/

namespace CurveSketch

structure Settings where
  maxExpressionLength : Nat
  lexMode : LexMode
  maxWidth : Nat
  maxHeight : Nat
  sampleWorkers : Nat
  deriving DecidableEq

inductive SettingsFault where
  | notObject (kind : String)
  | mode (fault : PlainFault)
  | number (fault : WholeFault)
  deriving DecidableEq

def SettingsFault.message : SettingsFault → String
  | .notObject kind => s!"'{kind}' object has no attribute 'get'"
  | .mode fault => fault.message
  | .number fault => fault.message

namespace Settings

def default : Settings := ⟨256, .strict, 4096, 4096, 1⟩

/-- A number of at least 1: cut off towards zero, raised to 1, replaced if it is no number. -/
def positive (value : Option Value) (fallback : Nat) : Except SettingsFault Nat :=
  match value with
  | none => .ok fallback
  | some .null => .ok fallback
  | some v =>
    match v.toWhole with
    | .ok n => .ok (max n 1).toNat
    | .error fault => if fault.isOverflow then .error (.number fault) else .ok fallback

/-- The mode of that name in any case, blanks around it dropped; strict if it is none. -/
def modeNamed (name : String) : LexMode :=
  (LexMode.ofName? (String.ofList (Text.lower (Text.trim Text.isBlank name.toList)))).getD
    default.lexMode

/-- A mode by the text that a value of any kind is written as. -/
def lexModeOf (value : Option Value) : Except SettingsFault LexMode :=
  match value with
  | none => .ok default.lexMode
  | some v =>
    match v.plain with
    | .ok name => .ok (modeNamed name)
    | .error fault => .error (.mode fault)

/-- The settings of the fields of a configuration. The mode is read first. -/
def ofFields (fields : List (String × Value)) : Except SettingsFault Settings :=
  match lexModeOf (Value.lookup? "lex_mode" fields) with
  | .error fault => .error fault
  | .ok lexMode =>
    match positive (Value.lookup? "max_expression_length" fields) default.maxExpressionLength with
    | .error fault => .error fault
    | .ok maxExpressionLength =>
      match positive (Value.lookup? "max_width" fields) default.maxWidth with
      | .error fault => .error fault
      | .ok maxWidth =>
        match positive (Value.lookup? "max_height" fields) default.maxHeight with
        | .error fault => .error fault
        | .ok maxHeight =>
          match positive (Value.lookup? "sample_workers" fields) default.sampleWorkers with
          | .error fault => .error fault
          | .ok sampleWorkers =>
            .ok ⟨maxExpressionLength, lexMode, maxWidth, maxHeight, sampleWorkers⟩

/-- The settings of a value of any kind. Nothing to speak of counts as no configuration. -/
def ofValue (raw : Value) : Except SettingsFault Settings :=
  match raw.orEmptyObject.fields? with
  | some fields => ofFields fields
  | none => .error (.notObject raw.kind)

def toValue (s : Settings) : Value :=
  .object [
    ("max_expression_length", .int s.maxExpressionLength),
    ("lex_mode", .text s.lexMode.name),
    ("max_width", .int s.maxWidth),
    ("max_height", .int s.maxHeight),
    ("sample_workers", .int s.sampleWorkers)]

end Settings
end CurveSketch
