import CurveSketch.Program.Run

/-!
# CurveSketch.Expr

Expression trees and what they mean, independently of programs. `Expr.value` evaluates the left
operand before the right one and stops at the first value that is not finite;
`Expr.instructions` lists a tree in postfix order. The two agree: running the listing pushes the
value of the tree on whatever is on the stack (`exec_instructions`).
-/

namespace CurveSketch

inductive Expr where
  | const (value : Float)
  | var
  | neg (operand : Expr)
  | binary (op : BinaryOp) (left right : Expr)
  | call (f : Function) (argument : Expr)

namespace Expr

def value (m : Elementary) (x : Float) : Expr → Except DomainFault Float
  | const v => checked (.const v) v
  | var => checked .var x
  | neg e =>
    match value m x e with
    | .error fault => .error fault
    | .ok v => checked (.apply .neg) (-v)
  | binary op l r =>
    match value m x l with
    | .error fault => .error fault
    | .ok a =>
      match value m x r with
      | .error fault => .error fault
      | .ok b => op.apply m a b
  | call f e =>
    match value m x e with
    | .error fault => .error fault
    | .ok v => f.apply m v

/-- The expression in postfix order: operands first, from left to right. -/
def instructions : Expr → List Instruction
  | const v => [.const v]
  | var => [.var]
  | neg e => instructions e ++ [.apply .neg]
  | binary op l r => instructions l ++ instructions r ++ [.apply (.binary op)]
  | call f e => instructions e ++ [.call f]

def root : Expr → Instruction
  | const v => .const v
  | var => .var
  | neg _ => .apply .neg
  | binary op _ _ => .apply (.binary op)
  | call f _ => .call f

/-- The parts of an expression in postfix order, the whole of it last. -/
def parts : Expr → List Expr
  | const v => [const v]
  | var => [var]
  | neg e => parts e ++ [neg e]
  | binary op l r => parts l ++ parts r ++ [binary op l r]
  | call f e => parts e ++ [call f e]

theorem map_root_parts (e : Expr) : e.parts.map root = e.instructions := by
  induction e with
  | const v => rfl
  | var => rfl
  | neg e ih => simp [parts, instructions, root, ih]
  | binary op l r ihl ihr => simp [parts, instructions, root, ihl, ihr]
  | call f e ih => simp [parts, instructions, root, ih]

/-- Running the postfix listing of an expression pushes its value. -/
theorem exec_instructions (m : Elementary) (x : Float) (e : Expr) (stack : List Float) :
    Program.exec m x e.instructions stack = Program.push stack (e.value m x) := by
  induction e generalizing stack with
  | const v =>
    simp only [instructions, value, Program.exec, Program.step]
    cases checked (.const v) v <;> rfl
  | var =>
    simp only [instructions, value, Program.exec, Program.step]
    cases checked .var x <;> rfl
  | neg e ih =>
    simp only [instructions, value, Program.exec_append, ih]
    cases value m x e with
    | error fault => rfl
    | ok v =>
      simp only [Program.push, Program.exec, Program.step]
      cases checked (.apply .neg) (-v) <;> rfl
  | binary op l r ihl ihr =>
    simp only [instructions, value, Program.exec_append, ihl]
    cases value m x l with
    | error fault => rfl
    | ok a =>
      simp only [Program.push, ihr]
      cases value m x r with
      | error fault => rfl
      | ok b =>
        simp only [Program.push, Program.exec, Program.step]
        cases op.apply m a b <;> rfl
  | call f e ih =>
    simp only [instructions, value, Program.exec_append, ih]
    cases value m x e with
    | error fault => rfl
    | ok v =>
      simp only [Program.push, Program.exec, Program.step]
      cases f.apply m v <;> rfl

end Expr
end CurveSketch
