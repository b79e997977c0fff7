import CurveSketch.Service.Problem
import CurveSketch.Value.Writer

/-!
# CurveSketch.Service.Reply

Answers of the service. Every document is an envelope: whether the request succeeded, and its data
or its error. An answer to a request also carries the id of the request, in the envelope and in a
header. Every answer carries the same security headers.
-/

namespace CurveSketch

structure Reply where
  status : Nat
  contentType : String
  document : Option Value

namespace Reply

def documentType : String := "application/json"

def pageType : String := "text/html; charset=utf-8"

def envelope (requestId : Option String) (success : Bool) (name : String) (content : Value) :
    Value :=
  .object ([("success", .bool success), (name, content)] ++
    match requestId with
    | some id => [("request_id", .text id)]
    | none => [])

def ok (requestId : Option String) (status : Nat) (data : Value) : Reply :=
  ⟨status, documentType, some (envelope requestId true "data" data)⟩

/-- A status that is given counts unless it is 0. -/
def chosenStatus (given : Option Nat) (fallback : Nat) : Nat :=
  match given with
  | some (status + 1) => status + 1
  | _ => fallback

def fail (requestId : Option String) (status : Option Nat) (p : Problem) : Reply :=
  ⟨chosenStatus status p.status, documentType, some (envelope requestId false "error" p.toValue)⟩

/-- The answer to a request that failed with an error given field by field. -/
def failWith (requestId : Option String) (status : Option Nat) (fields : List (String × Value)) :
    Reply :=
  ⟨chosenStatus status 400, documentType,
    some (envelope requestId false "error" (.object fields))⟩

def page (status : Nat) : Reply :=
  ⟨status, pageType, none⟩

def body (r : Reply) : String :=
  match r.document with
  | some v => v.compact ++ "\n"
  | none => ""

/-- The headers that keep browsers from guessing, framing and leaking. -/
def securityHeaders : List (String × String) := [
  ("X-Content-Type-Options", "nosniff"),
  ("X-Frame-Options", "DENY"),
  ("Content-Security-Policy", "default-src 'none'; frame-ancestors 'none'"),
  ("Referrer-Policy", "no-referrer")]

def idHeader : String := "X-Request-ID"

def headers (requestId : String) : List (String × String) :=
  (idHeader, requestId) :: securityHeaders

end Reply
end CurveSketch
