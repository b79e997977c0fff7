import CurveSketch.Decimal.Reading

/-!
# CurveSketch.Environment

What the service takes from its environment: the port to listen at and the key that sessions are
signed with. An empty variable counts as one that is not set.
-/

namespace CurveSketch

structure Environment where
  ownPort : Option String
  port : Option String
  secret : Option String

/-- The key that sessions are signed with: a given one, or one drawn from that many random
bytes. -/
inductive Secret where
  | given (key : String)
  | drawn (bytes : Nat)
  deriving DecidableEq

/-- The length of a key as text. A drawn one is written with 64 characters, six bits each. -/
def Secret.length : Secret → Nat
  | .given key => key.toList.length
  | .drawn bytes => (8 * bytes + 5) / 6

namespace Environment

def filled : Option String → Option String
  | some s => if s.toList.isEmpty then none else some s
  | none => none

/-- The text of the port: the service's own variable, the general one, or the default. -/
def portText (e : Environment) : String :=
  ((filled e.ownPort).or (filled e.port)).getD "5001"

def resolvePort (e : Environment) : Except String Int :=
  match Decimal.readInt? e.portText with
  | some port => .ok port
  | none =>
    .error s!"Invalid port '{e.portText}'. Set FUNCTION_GRAPHER_PORT to a number."

def sessionSecret (e : Environment) : Secret :=
  match filled e.secret with
  | some key => .given key
  | none => .drawn 64

end Environment
end CurveSketch
