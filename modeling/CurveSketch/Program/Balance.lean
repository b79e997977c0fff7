import CurveSketch.Expr

/-!
# CurveSketch.Program.Balance

How high the stack is, without running anything. An instruction needs a number of values and
leaves one; a program is balanced when it starts from nothing, never needs more than is there and
leaves exactly one value. Runs keep to this count (`depth?_of_exec`), and the postfix listing of an
expression is balanced (`balanced_instructions`).
-/

namespace CurveSketch

/-- The number of values after an instruction, `none` if it needs more than there are. -/
def Instruction.depth? : Instruction → Nat → Option Nat
  | const _, n => some (n + 1)
  | var, n => some (n + 1)
  | apply .neg, n + 1 => some (n + 1)
  | apply (.binary _), n + 2 => some (n + 1)
  | call _, n + 1 => some (n + 1)
  | _, _ => none

namespace Program

def depth? : List Instruction → Nat → Option Nat
  | [], n => some n
  | i :: rest, n =>
    match i.depth? n with
    | some m => depth? rest m
    | none => none

/-- The instructions leave one value and never need more than there are. -/
def Balanced (is : List Instruction) : Prop :=
  depth? is 0 = some 1

instance (is : List Instruction) : Decidable (Balanced is) :=
  inferInstanceAs (Decidable (depth? is 0 = some 1))

theorem depth?_append (is js : List Instruction) (n : Nat) :
    depth? (is ++ js) n = (depth? is n).bind (depth? js) := by
  induction is generalizing n with
  | nil => rfl
  | cons i rest ih =>
    simp only [List.cons_append, depth?]
    cases i.depth? n with
    | none => rfl
    | some m => exact ih m

theorem push_eq_ok {stack out : List Float} {r : Except DomainFault Float}
    (h : push stack r = .ok out) : ∃ v, r = .ok v ∧ out = v :: stack := by
  cases r with
  | error fault => cases h
  | ok v => exact ⟨v, rfl, by cases h; rfl⟩

theorem depth?_of_step {m : Elementary} {x : Float} {i : Instruction} {stack out : List Float}
    (h : step m x i stack = .ok out) : i.depth? stack.length = some out.length := by
  cases i with
  | const v => obtain ⟨w, -, rfl⟩ := push_eq_ok h; rfl
  | var => obtain ⟨w, -, rfl⟩ := push_eq_ok h; rfl
  | apply op =>
    cases op with
    | neg =>
      match stack, h with
      | _ :: rest, h => obtain ⟨w, -, rfl⟩ := push_eq_ok h; rfl
    | binary op =>
      match stack, h with
      | _ :: _ :: rest, h => obtain ⟨w, -, rfl⟩ := push_eq_ok h; rfl
  | call f =>
    match stack, h with
    | _ :: rest, h => obtain ⟨w, -, rfl⟩ := push_eq_ok h; rfl

theorem depth?_of_exec {m : Elementary} {x : Float} {is : List Instruction}
    {stack out : List Float} (h : exec m x is stack = .ok out) :
    depth? is stack.length = some out.length := by
  induction is generalizing stack with
  | nil => cases h; rfl
  | cons i rest ih =>
    simp only [exec] at h
    cases hs : step m x i stack with
    | error fault => rw [hs] at h; cases h
    | ok next =>
      rw [hs] at h
      simp only [depth?, depth?_of_step hs]
      exact ih h

theorem depth?_instructions (e : Expr) (n : Nat) : depth? e.instructions n = some (n + 1) := by
  induction e generalizing n with
  | const v => rfl
  | var => rfl
  | neg e ih => rw [Expr.instructions, depth?_append, ih]; rfl
  | binary op l r ihl ihr =>
    rw [Expr.instructions, depth?_append, depth?_append, ihl, Option.bind_some, ihr]; rfl
  | call f e ih => rw [Expr.instructions, depth?_append, ih]; rfl

theorem balanced_instructions (e : Expr) : Balanced e.instructions :=
  depth?_instructions e 0

end Program
end CurveSketch
