import CurveSketch.Report

/-!
# CurveSketch.Service.Problem

What a failed request is told: a code, a message, details and a status. The engine's own errors
become problems with codes of their own. Of any other error only the name of its kind is told.
-/

namespace CurveSketch

inductive ProblemKind where
  | application
  | validation
  | notFound
  | internal
  deriving DecidableEq, Repr

namespace ProblemKind

def code : ProblemKind → String
  | application => "error"
  | validation => "validation_error"
  | notFound => "not_found"
  | internal => "internal_error"

def status : ProblemKind → Nat
  | application => 400
  | validation => 400
  | notFound => 404
  | internal => 500

end ProblemKind

structure Problem where
  kind : ProblemKind
  message : String
  code : String
  status : Nat
  details : Value

namespace Problem

def ofKind (kind : ProblemKind) (message : String) : Problem :=
  ⟨kind, message, kind.code, kind.status, .null⟩

def invalid (code message : String) (details : Value) : Problem :=
  { ofKind .validation message with code := code, details := details }

/-- An error that is none of the engine's own: only the name of its kind is told. -/
def foreign (code kindName : String) : Problem :=
  { ofKind .internal "The expression engine failed to process the request" with
    code := code
    details := .object [("type", .text kindName)] }

def toValue (p : Problem) : Value :=
  .object [
    ("code", .text p.code),
    ("message", .text p.message),
    ("details", p.details.orEmptyObject)]

def placeValue : Option Nat → Value
  | some position => .int position
  | none => .null

def charValue : Option Char → Value
  | some c => .text (String.ofList [c])
  | none => .null

def lexical (message : String) (position : Option Nat) (char : Option Char) : Problem :=
  invalid "function_grapher.lex_error" message
    (.object [("position", placeValue position), ("char", charValue char)])

def grammatical (message : String) (position : Option Nat) : Problem :=
  invalid "function_grapher.syntax_error" message (.object [("position", placeValue position)])

def internal (kindName : String) : Problem :=
  foreign "function_grapher.internal" kindName

def ofCompileError : CompileError → Problem
  | .lex e => lexical e.message e.position? e.char?
  | .grammar e => grammatical e.message e.position?

def invalidBody (details : Value) : Problem :=
  invalid "function_grapher.invalid_request" "Invalid request payload" details

/-- The problem of a request that is refused although its body is well formed. -/
def invalidRequest (message : String) : Problem :=
  invalid "function_grapher.invalid_request" message .null

def invalidWindow (message : String) : Problem :=
  invalid "function_grapher.invalid_window" message .null

end Problem
end CurveSketch
