import CurveSketch.Proofs.Postfix

/-!
# CurveSketch.Proofs.Evaluation

Runs of postfix code against the values of expressions. A run of a listing pushes the value of the
expression or stops with its fault, and it stops at the very instruction of the first part, in
postfix order, that has no value (`stopsFirst_of_value`); this holds for every choice of the
elementary operations and on every stack. Programs put together by hand are covered by the static
count: the balanced ones are listings, so they never meet a stack fault, and a program that returns
a value once is balanced (`balanced_of_evaluateWith`).
-/

namespace CurveSketch

variable {m : Elementary} {x : Float}

/-! ## Values are finite -/

theorem isFinite_of_checked {i : Instruction} {v w : Float} (h : checked i v = .ok w) :
    w.isFinite = true := by
  simp only [checked] at h
  split at h
  · rename_i hv
    cases h
    exact hv
  · cases h

theorem BinaryOp.isFinite_of_apply {op : BinaryOp} {a b v : Float} (h : op.apply m a b = .ok v) :
    v.isFinite = true := by
  cases op with
  | add => exact isFinite_of_checked h
  | sub => exact isFinite_of_checked h
  | mul => exact isFinite_of_checked h
  | div =>
    simp only [BinaryOp.apply] at h
    split at h
    · cases h
    · exact isFinite_of_checked h
  | pow =>
    simp only [BinaryOp.apply] at h
    split at h
    · exact isFinite_of_checked h
    · cases h

theorem Function.isFinite_of_apply {f : Function} {a v : Float} (h : f.apply m a = .ok v) :
    v.isFinite = true := by
  simp only [Function.apply] at h
  split at h
  · exact isFinite_of_checked h
  · cases h

namespace Expr

theorem isFinite_of_value {e : Expr} {v : Float} (h : e.value m x = .ok v) :
    v.isFinite = true := by
  cases e with
  | const w => exact isFinite_of_checked h
  | var => exact isFinite_of_checked h
  | neg e =>
    simp only [value] at h
    split at h
    · cases h
    · exact isFinite_of_checked h
  | binary op l r =>
    simp only [value] at h
    split at h
    · cases h
    · split at h
      · cases h
      · exact op.isFinite_of_apply h
  | call f e =>
    simp only [value] at h
    split at h
    · cases h
    · exact f.isFinite_of_apply h

/-! ## Where a run stops -/

def AllDefined (m : Elementary) (x : Float) (parts : List Expr) : Prop :=
  ∀ q ∈ parts, ∃ v, q.value m x = .ok v

theorem AllDefined.append {front back : List Expr} (h : AllDefined m x front)
    (h' : AllDefined m x back) : AllDefined m x (front ++ back) := by
  intro q hq
  rcases List.mem_append.mp hq with hq | hq
  · exact h q hq
  · exact h' q hq

theorem AllDefined.nil : AllDefined m x [] := by
  intro q hq
  cases hq

theorem AllDefined.singleton {e : Expr} {v : Float} (h : e.value m x = .ok v) :
    AllDefined m x [e] := by
  intro q hq
  rw [List.mem_singleton] at hq
  subst hq
  exact ⟨v, h⟩

theorem allDefined_parts {e : Expr} {v : Float} (h : e.value m x = .ok v) :
    AllDefined m x e.parts := by
  induction e generalizing v with
  | const c => exact .singleton h
  | var => exact .singleton h
  | neg e ih =>
    cases he : e.value m x with
    | error fault => simp [value, he] at h
    | ok w => exact (ih he).append (.singleton h)
  | binary op l r ihl ihr =>
    cases hl : l.value m x with
    | error fault => simp [value, hl] at h
    | ok a =>
      cases hr : r.value m x with
      | error fault => simp [value, hl, hr] at h
      | ok b => exact ((ihl hl).append (ihr hr)).append (.singleton h)
  | call f e ih =>
    cases he : e.value m x with
    | error fault => simp [value, he] at h
    | ok w => exact (ih he).append (.singleton h)

/-- `part` is the first part in postfix order without a value; `before` are the parts before it. -/
structure FirstFault (m : Elementary) (x : Float) (e : Expr) (before : List Expr) (part : Expr)
    (fault : DomainFault) : Prop where
  split : ∃ after, e.parts = before ++ part :: after
  earlier : AllDefined m x before
  fails : part.value m x = .error fault

theorem FirstFault.within {e whole part : Expr} {before : List Expr} {fault : DomainFault}
    (h : FirstFault m x e before part fault) {front : List Expr} (hfront : AllDefined m x front)
    (back : List Expr) (hparts : whole.parts = front ++ e.parts ++ back) :
    FirstFault m x whole (front ++ before) part fault := by
  obtain ⟨⟨after, hsplit⟩, hearlier, hfails⟩ := h
  refine ⟨⟨after ++ back, ?_⟩, hfront.append hearlier, hfails⟩
  rw [hparts, hsplit]
  simp only [List.append_assoc, List.cons_append]

theorem FirstFault.outermost {e : Expr} {before : List Expr} {fault : DomainFault}
    (h : e.value m x = .error fault) (hparts : e.parts = before ++ [e])
    (hbefore : AllDefined m x before) : FirstFault m x e before e fault :=
  ⟨⟨[], hparts⟩, hbefore, h⟩

/-- The run executes the instructions of all parts before the first fault and stops there. -/
def StopsAt (m : Elementary) (x : Float) (stack : List Float) (before : List Expr) (part : Expr)
    (fault : DomainFault) : Prop :=
  ∃ reached, Program.exec m x (before.map root) stack = .ok reached ∧
    Program.step m x part.root reached = .error (.domain fault)

theorem exec_parts {e : Expr} {v : Float} (h : e.value m x = .ok v) (stack : List Float) :
    Program.exec m x (e.parts.map root) stack = .ok (v :: stack) := by
  rw [map_root_parts, exec_instructions, h]
  rfl

theorem exec_parts_append {l r : Expr} {a b : Float} (hl : l.value m x = .ok a)
    (hr : r.value m x = .ok b) (stack : List Float) :
    Program.exec m x ((l.parts ++ r.parts).map root) stack = .ok (b :: a :: stack) := by
  rw [List.map_append, Program.exec_append, exec_parts hl]
  exact exec_parts hr (a :: stack)

theorem StopsAt.after {stack next : List Float} {front before : List Expr} {part : Expr}
    {fault : DomainFault} (h : StopsAt m x next before part fault)
    (hfront : Program.exec m x (front.map root) stack = .ok next) :
    StopsAt m x stack (front ++ before) part fault := by
  obtain ⟨reached, hexec, hstep⟩ := h
  refine ⟨reached, ?_, hstep⟩
  rw [List.map_append, Program.exec_append, hfront]
  exact hexec

/-- The run of this listing stops at the first part without a value, on any stack. -/
def StopsFirst (m : Elementary) (x : Float) (e : Expr) (fault : DomainFault) : Prop :=
  ∀ stack, ∃ before part, FirstFault m x e before part fault ∧ StopsAt m x stack before part fault

theorem StopsFirst.leaf {e : Expr} {fault : DomainFault} (hparts : e.parts = [e])
    (h : e.value m x = .error fault)
    (hstep : ∀ stack, Program.step m x e.root stack = Program.push stack (e.value m x)) :
    StopsFirst m x e fault := by
  intro stack
  refine ⟨[], e, .outermost h hparts .nil, stack, rfl, ?_⟩
  rw [hstep, h]
  rfl

/-- The nodes with one operand: either the operand stops the run, or the node itself does. -/
theorem StopsFirst.unary {e whole : Expr} {fault : DomainFault}
    {op : Float → Except DomainFault Float}
    (hparts : whole.parts = e.parts ++ [whole])
    (hvalue : whole.value m x =
      match e.value m x with
      | .error fault => .error fault
      | .ok v => op v)
    (hstep : ∀ v stack, Program.step m x whole.root (v :: stack) = Program.push stack (op v))
    (ih : ∀ fault, e.value m x = .error fault → StopsFirst m x e fault)
    (h : whole.value m x = .error fault) : StopsFirst m x whole fault := by
  intro stack
  cases he : e.value m x with
  | error inner =>
    rw [hvalue, he] at h
    cases h
    obtain ⟨before, part, hfirst, hstops⟩ := ih _ he stack
    exact ⟨before, part, hfirst.within .nil [whole] hparts, hstops⟩
  | ok v =>
    refine ⟨e.parts, whole, .outermost h hparts (allDefined_parts he), v :: stack,
      exec_parts he stack, ?_⟩
    rw [hvalue, he] at h
    simp only at h
    rw [hstep, h]
    rfl

/-- The run of a listing stops at the first part in postfix order without a value. -/
theorem stopsFirst_of_value {e : Expr} {fault : DomainFault} (h : e.value m x = .error fault) :
    StopsFirst m x e fault := by
  induction e generalizing fault with
  | const v => exact .leaf rfl h (fun _ => rfl)
  | var => exact .leaf rfl h (fun _ => rfl)
  | neg e ih => exact .unary rfl rfl (fun _ _ => rfl) (fun _ he => ih he) h
  | call f e ih => exact .unary rfl rfl (fun _ _ => rfl) (fun _ he => ih he) h
  | binary op l r ihl ihr =>
    -- the left operand is listed first, so its fault hides one of the right operand
    intro stack
    cases hl : l.value m x with
    | error inner =>
      simp only [value, hl] at h
      cases h
      obtain ⟨before, part, hfirst, hstops⟩ := ihl hl stack
      have hparts : (binary op l r).parts = [] ++ l.parts ++ (r.parts ++ [.binary op l r]) := by
        simp only [parts, List.nil_append, List.append_assoc]
      exact ⟨before, part, hfirst.within .nil _ hparts, hstops⟩
    | ok a =>
      cases hr : r.value m x with
      | error inner =>
        simp only [value, hl, hr] at h
        cases h
        obtain ⟨before, part, hfirst, hstops⟩ := ihr hr (a :: stack)
        exact ⟨l.parts ++ before, part, hfirst.within (allDefined_parts hl) [.binary op l r] rfl,
          hstops.after (exec_parts hl stack)⟩
      | ok b =>
        have hoperands := (allDefined_parts hl).append (allDefined_parts hr)
        refine ⟨l.parts ++ r.parts, .binary op l r, .outermost h rfl hoperands, b :: a :: stack,
          exec_parts_append hl hr stack, ?_⟩
        simp only [value, hl, hr] at h
        simp only [root, Program.step, h, Program.push]

end Expr

namespace Program

/-! ## Programs -/

theorem evaluateWith_of_value {e : Expr} {v : Float} (h : e.value m x = .ok v) (source : String) :
    evaluateWith m ⟨e.instructions, source⟩ x = .ok v := by
  simp only [evaluateWith, Expr.exec_instructions, h, push, result]

theorem evaluateWith_of_fault {e : Expr} {fault : DomainFault} (h : e.value m x = .error fault)
    (source : String) : evaluateWith m ⟨e.instructions, source⟩ x = .error (.domain fault) := by
  simp only [evaluateWith, Expr.exec_instructions, h, push]

theorem balanced_of_evaluateWith {p : Program} {v : Float} (h : p.evaluateWith m x = .ok v) :
    Balanced p.instructions := by
  simp only [evaluateWith] at h
  split at h
  · rename_i stack hexec
    match stack, h with
    | [w], h => exact depth?_of_exec hexec
  · cases h

theorem evaluateWith_of_balanced {p : Program} (h : Balanced p.instructions) (m : Elementary)
    (x : Float) :
    (∃ v, p.evaluateWith m x = .ok v ∧ v.isFinite = true) ∨
      ∃ fault, p.evaluateWith m x = .error (.domain fault) := by
  obtain ⟨instructions, source⟩ := p
  obtain ⟨e, rfl⟩ := (balanced_iff_exists_instructions instructions).mp h
  cases he : e.value m x with
  | ok v => exact .inl ⟨v, evaluateWith_of_value he source, Expr.isFinite_of_value he⟩
  | error fault => exact .inr ⟨fault, evaluateWith_of_fault he source⟩

theorem evaluateWith_of_not_balanced {p : Program} (h : ¬ Balanced p.instructions)
    (m : Elementary) (x : Float) : ∃ fault, p.evaluateWith m x = .error fault := by
  cases he : p.evaluateWith m x with
  | ok v => exact absurd (balanced_of_evaluateWith he) h
  | error fault => exact ⟨fault, rfl⟩

theorem not_balanced_of_stackFault {p : Program} {fault : StackFault}
    (h : p.evaluateWith m x = .error (.stack fault)) : ¬ Balanced p.instructions := by
  intro hb
  rcases evaluateWith_of_balanced hb m x with ⟨v, hv, -⟩ | ⟨fault', hf⟩
  · rw [h] at hv
    cases hv
  · rw [h] at hf
    cases hf

/-- Running the listing of an expression gives the value of the expression, or its fault. The run
then stops at the instruction of the first part in postfix order that has no value, and with
that part's fault. -/
theorem evaluateWith_instructions (m : Elementary) (e : Expr) (source : String) (x : Float) :
    match e.value m x with
    | .ok v => evaluateWith m ⟨e.instructions, source⟩ x = .ok v
    | .error fault =>
      evaluateWith m ⟨e.instructions, source⟩ x = .error (.domain fault) ∧
        ∃ before part, e.FirstFault m x before part fault ∧
          Expr.StopsAt m x [] before part fault := by
  split
  · rename_i v he
    exact evaluateWith_of_value he source
  · rename_i fault he
    exact ⟨evaluateWith_of_fault he source, Expr.stopsFirst_of_value he []⟩

/-- What the static count says about the runs of a program. -/
theorem stackDiscipline (p : Program) :
    (Balanced p.instructions ↔ ∃ e : Expr, p.instructions = e.instructions) ∧
    (∀ e e' : Expr, p.instructions = e.instructions → p.instructions = e'.instructions → e = e') ∧
    (Balanced p.instructions → ∀ x,
      (∃ v, p.evaluate x = .ok v ∧ v.isFinite = true) ∨
        ∃ fault, p.evaluate x = .error (.domain fault)) ∧
    (¬ Balanced p.instructions → ∀ x, ∃ fault, p.evaluate x = .error fault) ∧
    (∀ x fault, p.evaluate x = .error (.stack fault) →
      ∀ y, ∃ fault', p.evaluate y = .error fault') := by
  refine ⟨balanced_iff_exists_instructions p.instructions, ?_, ?_, ?_, ?_⟩
  · intro e e' he he'
    exact instructions_injective (he.symm.trans he')
  · intro h x
    exact evaluateWith_of_balanced h .double x
  · intro h x
    exact evaluateWith_of_not_balanced h .double x
  · intro x fault h y
    exact evaluateWith_of_not_balanced (not_balanced_of_stackFault h) .double y

/-- `1 x` leaves two values at 1, so it has no value anywhere; `x neg` lists `-x`. -/
theorem stackDiscipline_leftOver :
    evaluate ⟨[.const 1, .var], ""⟩ 1 = .error (.stack (.leftOver 2)) ∧
    (∀ y, ∃ fault, evaluate ⟨[.const 1, .var], ""⟩ y = .error fault) ∧
    ∃ e : Expr, [.var, .apply .neg] = e.instructions := by
  have hrun : evaluate ⟨[.const 1, .var], ""⟩ 1 = .error (.stack (.leftOver 2)) := rfl
  have hstack := (stackDiscipline ⟨[.const 1, .var], ""⟩).2.2.2.2 1 _ hrun
  have htree := (stackDiscipline ⟨[.var, .apply .neg], ""⟩).1.mp (by decide)
  exact ⟨hrun, hstack, htree⟩

end Program
end CurveSketch
