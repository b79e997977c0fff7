import CurveSketch.Program
import CurveSketch.Value.Number

/-!
# CurveSketch.Program.Run

Running a program at a value of `x`. Every value that is pushed is checked to be finite, so what
is on the stack is always a finite number and the first undefined step ends the run. Two things
can go wrong: a result is undefined at this `x` (`DomainFault`), or the program does not keep its
stack in order (`StackFault`). The machine is the same for every choice of the elementary
operations; `Program.evaluate` runs it with those on doubles.
-/

namespace CurveSketch

inductive DomainFault where
  | notFinite (instruction : Instruction)
  | divisionByZero
  | power (left right : Float)
  | undefined (f : Function) (argument : Float)

def DomainFault.message : DomainFault → String
  | .notFinite i => s!"'{i.text}' produced a non-finite value"
  | .divisionByZero => "Division by zero"
  | .power left right =>
    Decimal.Layout.six.render left ++ " ^ " ++ Decimal.Layout.six.render right ++
      " is not a finite real number"
  | .undefined f argument =>
    f.name ++ "(" ++ Decimal.Layout.six.render argument ++ ") is undefined"

/-- How a program fails to keep its stack in order. -/
inductive StackFault where
  | empty (instruction : Instruction)
  | leftOver (count : Nat)

def StackFault.message : StackFault → String
  | .empty i => s!"Value stack is empty when applying '{i.text}'"
  | .leftOver count => s!"Program left {count} values on the stack, expected 1"

inductive RunFault where
  | domain (fault : DomainFault)
  | stack (fault : StackFault)

def RunFault.message : RunFault → String
  | .domain fault => fault.message
  | .stack fault => fault.message

def checked (i : Instruction) (v : Float) : Except DomainFault Float :=
  if v.isFinite then .ok v else .error (.notFinite i)

/-- The operations that are taken as they are: powers and the functions. One that is undefined at
its operands has no value there. -/
structure Elementary where
  power : Float → Float → Option Float
  function : Function → Float → Option Float

namespace Elementary

def finite? (v : Float) : Option Float :=
  if v.isFinite then some v else none

/-- The operations on doubles, undefined where their result is not finite. -/
def double : Elementary where
  power left right := finite? (left.pow right)
  function f argument := finite? (f.value argument)

end Elementary

def BinaryOp.apply (m : Elementary) (op : BinaryOp) (left right : Float) :
    Except DomainFault Float :=
  match op with
  | .add => checked (.apply (.binary .add)) (left + right)
  | .sub => checked (.apply (.binary .sub)) (left - right)
  | .mul => checked (.apply (.binary .mul)) (left * right)
  | .div =>
    if right == 0 then .error .divisionByZero
    else checked (.apply (.binary .div)) (left / right)
  | .pow =>
    match m.power left right with
    | some v => checked (.apply (.binary .pow)) v
    | none => .error (.power left right)

def Function.apply (m : Elementary) (f : Function) (argument : Float) :
    Except DomainFault Float :=
  match m.function f argument with
  | some v => checked (.call f) v
  | none => .error (.undefined f argument)

namespace Program

def missing (i : Instruction) : Except RunFault (List Float) :=
  .error (.stack (.empty i))

def push (stack : List Float) : Except DomainFault Float → Except RunFault (List Float)
  | .ok v => .ok (v :: stack)
  | .error fault => .error (.domain fault)

def step (m : Elementary) (x : Float) (i : Instruction) (stack : List Float) :
    Except RunFault (List Float) :=
  match i with
  | .const value => push stack (checked i value)
  | .var => push stack (checked i x)
  | .apply .neg =>
    match stack with
    | operand :: rest => push rest (checked i (-operand))
    | [] => missing i
  | .apply (.binary op) =>
    match stack with
    | right :: left :: rest => push rest (op.apply m left right)
    | _ => missing i
  | .call f =>
    match stack with
    | argument :: rest => push rest (f.apply m argument)
    | [] => missing i

def exec (m : Elementary) (x : Float) :
    List Instruction → List Float → Except RunFault (List Float)
  | [], stack => .ok stack
  | i :: rest, stack =>
    match step m x i stack with
    | .ok stack => exec m x rest stack
    | .error fault => .error fault

def result : List Float → Except RunFault Float
  | [v] => .ok v
  | stack => .error (.stack (.leftOver stack.length))

def evaluateWith (m : Elementary) (p : Program) (x : Float) : Except RunFault Float :=
  match exec m x p.instructions [] with
  | .ok stack => result stack
  | .error fault => .error fault

def evaluate (p : Program) (x : Float) : Except RunFault Float :=
  p.evaluateWith .double x

theorem exec_append (m : Elementary) (x : Float) (is js : List Instruction) (stack : List Float) :
    exec m x (is ++ js) stack =
      match exec m x is stack with
      | .ok stack => exec m x js stack
      | .error fault => .error fault := by
  induction is generalizing stack with
  | nil => rfl
  | cons i rest ih =>
    simp only [List.cons_append, exec]
    cases step m x i stack with
    | ok next => exact ih next
    | error fault => rfl

end Program

/-- Why a program has no result at a value of any kind. -/
inductive EvaluateFault where
  | argument (fault : RealFault)
  | run (fault : RunFault)

def EvaluateFault.message : EvaluateFault → String
  | .argument fault => fault.message
  | .run fault => fault.message

def Program.evaluateAt (p : Program) (x : Value) : Except EvaluateFault Float :=
  match x.toReal with
  | .error fault => .error (.argument fault)
  | .ok x =>
    match p.evaluate x with
    | .ok v => .ok v
    | .error fault => .error (.run fault)

end CurveSketch
