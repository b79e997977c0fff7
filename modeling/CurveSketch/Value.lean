import CurveSketch.Decimal.Layout

/-!
# CurveSketch.Value

Values of any kind, as request bodies, configuration and answers hold them. Whole numbers and
doubles are told apart: a canvas size must be a whole number, a bound of a range may be either.
The fields of an object keep the order in which they were first written. A document can spell
half of a surrogate pair, which is no character; the replacement character is kept in its place,
and the text that it stands in is told apart from one that was written with that character.
-/

namespace CurveSketch

/-- A value of any kind. A broken text had half of a surrogate pair in it, and a broken object has
a field named by such a text. -/
inductive Value where
  | null
  | bool (b : Bool)
  | int (n : Int)
  | real (x : Float)
  | text (s : String)
  | list (items : List Value)
  | object (fields : List (String × Value))
  | brokenText (s : String)
  | brokenObject (fields : List (String × Value))
  deriving Inhabited

namespace Value

def kind : Value → String
  | null => "NoneType"
  | bool _ => "bool"
  | int _ => "int"
  | real _ => "float"
  | text _ => "str"
  | list _ => "list"
  | object _ => "dict"
  | brokenText _ => "str"
  | brokenObject _ => "dict"

/-- Nothing to speak of: null, false, a zero, or something without parts. No number counts as
something. -/
def isEmpty : Value → Bool
  | null => true
  | bool b => !b
  | int n => n == 0
  | real x => x == 0
  | text s => s.toList.isEmpty
  | list items => items.isEmpty
  | object fields => fields.isEmpty
  | brokenText _ => false
  | brokenObject _ => false

/-- The value, or an object without fields where there is nothing to speak of. -/
def orEmptyObject (v : Value) : Value :=
  if v.isEmpty then object [] else v

def lookup? (name : String) : List (String × Value) → Option Value
  | [] => none
  | (key, v) :: rest => if key == name then some v else lookup? name rest

/-- Fields with one of them set: in its old place if it was there, at the end if not. -/
def setField (name : String) (v : Value) : List (String × Value) → List (String × Value)
  | [] => [(name, v)]
  | (key, old) :: rest =>
    if key == name then (key, v) :: rest else (key, old) :: setField name v rest

def fields? : Value → Option (List (String × Value))
  | object fields => some fields
  | brokenObject fields => some fields
  | _ => none

/-- The parts that a value is walked through: the items of a list, the characters of a text, the
names of an object's fields. Other kinds have none. -/
def elements? : Value → Option (List Value)
  | list items => some items
  | text s => some (s.toList.map fun c => text (String.ofList [c]))
  | brokenText s => some (s.toList.map fun c => text (String.ofList [c]))
  | object fields => some (fields.map fun field => text field.1)
  | brokenObject fields => some (fields.map fun field => text field.1)
  | _ => none

/-- What is kept in place of half of a surrogate pair. -/
def replacement : Char := '\ufffd'

/-- How many values are followed into each other, when they are read from a document or written
out as text. -/
def depthLimit : Nat := 979

end Value
end CurveSketch
