import CurveSketch.Value
import CurveSketch.Text.Quoted

/-!
# CurveSketch.Value.Writer

Documents from values. The fields of an object are written in the order of their names, and all
characters outside printable ASCII as escapes, those beyond U+FFFF as a surrogate pair. `compact`
writes no blanks; `indented` gives each item a line of its own, two blanks further in.
-/

namespace CurveSketch
namespace Value

def unitEscape (unit : Nat) : String :=
  "\\u" ++ Text.hex 4 unit

def writtenChar (c : Char) : String :=
  if c == '"' then "\\\""
  else if c == '\\' then "\\\\"
  else if c == '\n' then "\\n"
  else if c == '\r' then "\\r"
  else if c == '\t' then "\\t"
  else if c == '\x0c' then "\\f"
  else if c == '\x08' then "\\b"
  else if 0x20 ≤ c.toNat && c.toNat < 0x7F then String.ofList [c]
  else if c.toNat < 0x10000 then unitEscape c.toNat
  else
    let offset := c.toNat - 0x10000
    unitEscape (0xD800 + offset / 0x400) ++ unitEscape (0xDC00 + offset % 0x400)

def writtenText (s : String) : String :=
  "\"" ++ String.join (s.toList.map writtenChar) ++ "\""

def byName {α : Type} (fields : List (String × α)) : List (String × α) :=
  fields.mergeSort fun a b => a.1 ≤ b.1

/-- How the parts of a list or an object are set apart: the text after an opening bracket, between
two parts, before the closing one, and after a name, at a given depth. -/
structure Spacing where
  opening : Nat → String
  between : Nat → String
  closing : Nat → String
  colon : String

def Spacing.compact : Spacing := ⟨fun _ => "", fun _ => ",", fun _ => "", ":"⟩

def newLine (depth : Nat) : String :=
  "\n" ++ String.ofList (List.replicate (2 * depth) ' ')

def Spacing.indented : Spacing :=
  ⟨fun depth => newLine (depth + 1), fun depth => "," ++ newLine (depth + 1), newLine, ": "⟩

/-- Parts between brackets; nothing stands between the brackets of an empty list. -/
def bracketed (spacing : Spacing) (depth : Nat) (left right : String) (parts : List String) :
    String :=
  if parts.isEmpty then left ++ right
  else
    left ++ spacing.opening depth ++ String.intercalate (spacing.between depth) parts ++
      spacing.closing depth ++ right

/-- Fields whose values are written already, in the order of their names. -/
def writtenObject (spacing : Spacing) (depth : Nat) (fields : List (String × String)) : String :=
  bracketed spacing depth "\x7b" "\x7d"
    ((byName fields).map fun field => writtenText field.1 ++ spacing.colon ++ field.2)

mutual

def write (spacing : Spacing) (depth : Nat) : Value → String
  | null => "null"
  | bool b => if b then "true" else "false"
  | int n => toString n
  | real x => Decimal.Layout.document.render x
  | text s => writtenText s
  | list items => bracketed spacing depth "[" "]" (writeItems spacing (depth + 1) items)
  | object fields => writtenObject spacing depth (writeFields spacing (depth + 1) fields)
  | brokenText s => writtenText s
  | brokenObject fields => writtenObject spacing depth (writeFields spacing (depth + 1) fields)

def writeItems (spacing : Spacing) (depth : Nat) : List Value → List String
  | [] => []
  | v :: rest => write spacing depth v :: writeItems spacing depth rest

def writeFields (spacing : Spacing) (depth : Nat) :
    List (String × Value) → List (String × String)
  | [] => []
  | (name, v) :: rest => (name, write spacing depth v) :: writeFields spacing depth rest

end

def compact (v : Value) : String :=
  v.write .compact 0

def indented (v : Value) : String :=
  v.write .indented 0

end Value
end CurveSketch
