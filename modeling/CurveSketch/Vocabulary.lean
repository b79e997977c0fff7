/-!
# CurveSketch.Vocabulary

The closed vocabulary of expressions: one variable, two constants, seven functions, five operators
between two operands and the sign. `Function.value` names the elementary operation that a function
stands for; nothing else in the library looks inside it.
-/

namespace CurveSketch

def variableName : String := "x"

/-- The named constants, each the double nearest to its number. -/
def constants : List (String × Float) :=
  [("pi", Float.ofBits 0x400921FB54442D18), ("e", Float.ofBits 0x4005BF0A8B145769)]

/-- The functions of one argument. `log` is to the base ten, `ln` to the base e. -/
inductive Function where
  | sin
  | cos
  | tan
  | sqrt
  | log
  | ln
  | abs
  deriving DecidableEq, Repr

namespace Function

def name : Function → String
  | sin => "sin"
  | cos => "cos"
  | tan => "tan"
  | sqrt => "sqrt"
  | log => "log"
  | ln => "ln"
  | abs => "abs"

/-- All functions, in the order in which they are listed to users. -/
def all : List Function :=
  [sin, cos, tan, sqrt, log, ln, abs]

def ofName? (s : String) : Option Function :=
  all.find? fun f => f.name == s

/-- The elementary operation. Where it is undefined the result is not finite. -/
def value : Function → Float → Float
  | sin, a => a.sin
  | cos, a => a.cos
  | tan, a => a.tan
  | sqrt, a => a.sqrt
  | log, a => a.log10
  | ln, a => a.log
  | abs, a => a.abs

theorem ofName?_name (f : Function) : ofName? f.name = some f := by
  cases f <;> decide

end Function

inductive BinaryOp where
  | add
  | sub
  | mul
  | div
  | pow
  deriving DecidableEq, Repr

namespace BinaryOp

def symbol : BinaryOp → String
  | add => "+"
  | sub => "-"
  | mul => "*"
  | div => "/"
  | pow => "^"

def all : List BinaryOp :=
  [add, sub, mul, div, pow]

def precedence : BinaryOp → Nat
  | add => 1
  | sub => 1
  | mul => 2
  | div => 2
  | pow => 3

end BinaryOp

/-- The operators: those between two operands, and the sign in front of one. -/
inductive Operator where
  | binary (op : BinaryOp)
  | neg
  deriving DecidableEq, Repr

namespace Operator

def symbol : Operator → String
  | binary op => op.symbol
  | neg => "neg"

def all : List Operator :=
  BinaryOp.all.map binary ++ [neg]

def ofSymbol? (s : String) : Option Operator :=
  all.find? fun op => op.symbol == s

def precedence : Operator → Nat
  | binary op => op.precedence
  | neg => 4

/-- Equal neighbours group to the right. -/
def rightAssociative : Operator → Bool
  | binary .pow => true
  | binary _ => false
  | neg => true

def isUnary : Operator → Bool
  | binary _ => false
  | neg => true

theorem ofSymbol?_symbol (op : Operator) : ofSymbol? op.symbol = some op := by
  cases op with
  | binary op => cases op <;> decide
  | neg => decide

theorem mem_all (op : Operator) : op ∈ all := by
  cases op with
  | binary op => cases op <;> decide
  | neg => decide

end Operator
end CurveSketch
