import CurveSketch.Vocabulary
import CurveSketch.Value

/-!
# CurveSketch.Program

Postfix programs: what an expression is compiled to. A program is a plain list of instructions;
whether it keeps its stack in order is a property of programs, not part of the type, because
programs can also be put together by hand.
-/

namespace CurveSketch

inductive Instruction where
  | const (value : Float)
  | var
  | apply (op : Operator)
  | call (f : Function)

inductive Opcode where
  | pushConst
  | pushVar
  | binary
  | unary
  | call
  deriving DecidableEq, Repr

namespace Opcode

def label : Opcode → String
  | pushConst => "push_const"
  | pushVar => "push_var"
  | binary => "binary"
  | unary => "unary"
  | call => "call"

def all : List Opcode :=
  [pushConst, pushVar, binary, unary, call]

end Opcode

namespace Instruction

def opcode : Instruction → Opcode
  | const _ => .pushConst
  | var => .pushVar
  | apply (.binary _) => .binary
  | apply .neg => .unary
  | call _ => .call

def text : Instruction → String
  | const value => Decimal.Layout.twelve.render value
  | var => variableName
  | apply op => op.symbol
  | call f => f.name

def operand : Instruction → Value
  | const value => .real value
  | var => .null
  | apply op => .text op.symbol
  | call f => .text f.name

def isVariable : Instruction → Bool
  | var => true
  | _ => false

end Instruction

/-- Instructions in postfix order, and the text they come from. -/
structure Program where
  instructions : List Instruction
  source : String

namespace Program

def text (p : Program) : String :=
  String.intercalate " " (p.instructions.map Instruction.text)

def length (p : Program) : Nat :=
  p.instructions.length

def usesVariable (p : Program) : Bool :=
  p.instructions.any Instruction.isVariable

end Program
end CurveSketch
