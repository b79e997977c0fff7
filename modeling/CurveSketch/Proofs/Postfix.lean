import CurveSketch.Program.Balance

/-!
# CurveSketch.Proofs.Postfix

Postfix code can be read back. `decode?` runs a program on a stack of expressions instead of
values, so every instruction builds the node that it stands for. It inverts the listing of an
expression (`decode?_instructions`), loses no instruction (`listing_of_decode?`) and keeps to the
static count (`map_length_decode?`). Hence the balanced programs are exactly the listings of
expressions (`balanced_iff_exists_instructions`), and an expression is determined by its listing
(`instructions_injective`).
-/

namespace CurveSketch

/-- The expressions after an instruction, `none` if it needs more than there are. -/
def Instruction.decode? : Instruction → List Expr → Option (List Expr)
  | const v, stack => some (.const v :: stack)
  | var, stack => some (.var :: stack)
  | apply .neg, e :: stack => some (.neg e :: stack)
  | apply (.binary op), r :: l :: stack => some (.binary op l r :: stack)
  | call f, e :: stack => some (.call f e :: stack)
  | _, _ => none

namespace Program

def decode? : List Instruction → List Expr → Option (List Expr)
  | [], stack => some stack
  | i :: rest, stack =>
    match i.decode? stack with
    | some next => decode? rest next
    | none => none

/-- The code that leaves these expressions, the top one listed last. -/
def listing (stack : List Expr) : List Instruction :=
  stack.reverse.flatMap Expr.instructions

theorem listing_cons (e : Expr) (stack : List Expr) :
    listing (e :: stack) = listing stack ++ e.instructions := by
  simp [listing]

theorem decode?_append (is js : List Instruction) (stack : List Expr) :
    decode? (is ++ js) stack = (decode? is stack).bind (decode? js) := by
  induction is generalizing stack with
  | nil => rfl
  | cons i rest ih =>
    simp only [List.cons_append, decode?]
    cases i.decode? stack with
    | none => rfl
    | some next => exact ih next

/-- The listing of an expression decodes to it, on any stack. -/
theorem decode?_instructions (e : Expr) (stack : List Expr) :
    decode? e.instructions stack = some (e :: stack) := by
  induction e generalizing stack with
  | const v => rfl
  | var => rfl
  | neg e ih => rw [Expr.instructions, decode?_append, ih]; rfl
  | binary op l r ihl ihr =>
    rw [Expr.instructions, decode?_append, decode?_append, ihl, Option.bind_some, ihr]; rfl
  | call f e ih => rw [Expr.instructions, decode?_append, ih]; rfl

theorem instructions_injective {e e' : Expr} (h : e.instructions = e'.instructions) : e = e' := by
  have hd := decode?_instructions e []
  rw [h, decode?_instructions e' []] at hd
  cases hd
  rfl

theorem listing_of_step {i : Instruction} {stack out : List Expr}
    (h : i.decode? stack = some out) : listing out = listing stack ++ [i] := by
  cases i with
  | const v =>
    cases h
    exact listing_cons (.const v) stack
  | var =>
    cases h
    exact listing_cons .var stack
  | apply op =>
    cases op with
    | neg =>
      rcases stack with _ | ⟨e, stack⟩ <;> cases h
      rw [listing_cons, listing_cons, Expr.instructions, List.append_assoc]
    | binary op =>
      rcases stack with _ | ⟨r, _ | ⟨l, stack⟩⟩ <;> cases h
      rw [listing_cons, listing_cons, listing_cons, Expr.instructions]
      simp only [List.append_assoc]
  | call f =>
    rcases stack with _ | ⟨e, stack⟩ <;> cases h
    rw [listing_cons, listing_cons, Expr.instructions, List.append_assoc]

theorem listing_of_decode? {is : List Instruction} {stack out : List Expr}
    (h : decode? is stack = some out) : listing out = listing stack ++ is := by
  induction is generalizing stack with
  | nil => cases h; simp
  | cons i rest ih =>
    simp only [decode?] at h
    cases hs : i.decode? stack with
    | none => rw [hs] at h; cases h
    | some next =>
      rw [hs] at h
      rw [ih h, listing_of_step hs, List.append_assoc, List.singleton_append]

theorem map_length_step (i : Instruction) (stack : List Expr) :
    (i.decode? stack).map List.length = i.depth? stack.length := by
  cases i with
  | const v => rfl
  | var => rfl
  | apply op =>
    cases op with
    | neg => cases stack <;> rfl
    | binary op => rcases stack with _ | ⟨r, _ | ⟨l, stack⟩⟩ <;> rfl
  | call f => cases stack <;> rfl

theorem map_length_decode? (is : List Instruction) (stack : List Expr) :
    (decode? is stack).map List.length = depth? is stack.length := by
  induction is generalizing stack with
  | nil => rfl
  | cons i rest ih =>
    have hs := map_length_step i stack
    simp only [decode?, depth?, ← hs]
    cases i.decode? stack with
    | none => rfl
    | some next => exact ih next

theorem balanced_iff_exists_instructions (is : List Instruction) :
    Balanced is ↔ ∃ e : Expr, is = e.instructions := by
  constructor
  · intro h
    have hlen : (decode? is []).map List.length = some 1 := by
      rw [map_length_decode?]; exact h
    obtain ⟨stack, hdecode, hone⟩ := Option.map_eq_some_iff.mp hlen
    obtain ⟨e, rfl⟩ := List.length_eq_one_iff.mp hone
    refine ⟨e, ?_⟩
    have hcode := listing_of_decode? hdecode
    simpa [listing] using hcode.symm
  · rintro ⟨e, rfl⟩
    exact balanced_instructions e

end Program
end CurveSketch
