import CurveSketch.Expr.Grammar
import CurveSketch.Program.Compile

/-!
# CurveSketch.Proofs.Precedence

Precedences against the levels of the grammar. The comparison of precedences, with its exception
for a sign before a power, is a comparison of levels: a waiting operator leaves for the next one
exactly when what it makes can be the left operand of the next one (`yields_iff`), and it stays
exactly when the next one makes an operand of it (`yields_eq_false_iff`). From this follow the
effects of the loops on a run of waiting operators, and the equations of one step of the compiler
by the kind of the previous token.
-/

namespace CurveSketch
namespace Compile

/-! ## When a waiting operator leaves -/

theorem yields_iff (top : Operator) (op : BinaryOp) :
    yields top (.binary op) = true ↔ top.level ≤ op.leftLevel := by
  cases top with
  | binary top => cases top <;> cases op <;> decide
  | neg => cases op <;> decide

theorem yields_eq_false_iff (top : Operator) (op : BinaryOp) :
    yields top (.binary op) = false ↔ op.level ≤ top.operandLevel := by
  cases top with
  | binary top => cases top <;> cases op <;> decide
  | neg => cases op <;> decide

theorem yields_neg (top : Operator) : yields top .neg = false := by
  cases top with
  | binary top => cases top <;> decide
  | neg => decide

theorem release_neg (pending : List Pending) (output : List Instruction) :
    release .neg pending output = (pending, output) := by
  cases pending with
  | nil => rfl
  | cons entry rest =>
    cases entry with
    | operator top => simp [release, yields_neg]
    | function f => rfl
    | group position => rfl

/-- What waits can take an operand of that level: the innermost entry is no function, and if it is
an operator, its operand is as loose. -/
def Admits (level : Level) : List Pending → Prop
  | .operator top :: _ => level ≤ top.operandLevel
  | .function _ :: _ => False
  | _ => True

theorem Admits.tighten {a b : Level} {pending : List Pending} (h : Admits b pending)
    (hab : a ≤ b) : Admits a pending := by
  match pending, h with
  | [], _ => trivial
  | .operator top :: _, h => exact Level.le_trans hab h
  | .group _ :: _, _ => trivial

theorem release_of_admits {op : BinaryOp} {pending : List Pending} (h : Admits op.level pending)
    (output : List Instruction) : release (.binary op) pending output = (pending, output) := by
  match pending, h with
  | [], _ => rfl
  | .operator top :: rest, h => simp [release, (yields_eq_false_iff top op).mpr h]
  | .group _ :: _, _ => rfl

/-! ## Runs of waiting operators -/

/-- The output after these operators have left, the innermost one first. -/
def flush (ops : List Operator) (output : List Instruction) : List Instruction :=
  (ops.map Instruction.apply).reverse ++ output

theorem flush_cons (op : Operator) (ops : List Operator) (output : List Instruction) :
    flush (op :: ops) output = flush ops (.apply op :: output) := by
  simp [flush]

theorem flush_concat (ops : List Operator) (op : Operator) (output : List Instruction) :
    flush (ops ++ [op]) output = .apply op :: flush ops output := by
  simp [flush]

theorem release_operators {op : BinaryOp} {ops : List Operator}
    (h : ∀ top ∈ ops, yields top (.binary op) = true) (pending : List Pending)
    (output : List Instruction) :
    release (.binary op) (ops.map .operator ++ pending) output =
      release (.binary op) pending (flush ops output) := by
  induction ops generalizing output with
  | nil => rfl
  | cons top ops ih =>
    rw [flush_cons, ← ih (fun t ht => h t (by simp [ht]))]
    simp [release, h top (by simp)]

theorem closeGroup?_operators (ops : List Operator) (pending : List Pending)
    (output : List Instruction) :
    closeGroup? (ops.map .operator ++ pending) output =
      closeGroup? pending (flush ops output) := by
  induction ops generalizing output with
  | nil => rfl
  | cons op ops ih => rw [flush_cons, ← ih]; rfl

theorem closeGroup?_group {pending : List Pending} (h : ∀ f rest, pending ≠ .function f :: rest)
    (position : Nat) (output : List Instruction) :
    closeGroup? (.group position :: pending) output = some (pending, output) := by
  cases pending with
  | nil => rfl
  | cons entry rest =>
    cases entry with
    | operator op => rfl
    | function f => exact absurd rfl (h f rest)
    | group position => rfl

theorem drain_operators (ops : List Operator) (pending : List Pending)
    (output : List Instruction) :
    drain (ops.map .operator ++ pending) output = drain pending (flush ops output) := by
  induction ops generalizing output with
  | nil => rfl
  | cons op ops ih => rw [flush_cons, ← ih]; rfl

/-! ## One step, by the previous token -/

/-- An operand is expected after this token, or at the start. -/
def Opens : Option Token → Prop
  | none => True
  | some t =>
    match t.lexeme with
    | .operator _ => True
    | .leftParen => True
    | _ => False

def noted (t : Token) : Except SyntaxError State → Except SyntaxError State
  | .ok s => .ok { s with previous := some t }
  | .error e => .error e

theorem missingCall?_of_opens {previous : Option Token} (h : Opens previous)
    (next : Option Token) : missingCall? previous next = none := by
  match previous, h with
  | none, _ => rfl
  | some ⟨.operator _, _⟩, _ => rfl
  | some ⟨.leftParen, _⟩, _ => rfl

theorem missingCall?_of_ends {last : Token} (h : last.lexeme.endsOperand = true)
    (next : Option Token) : missingCall? (some last) next = none := by
  match last, h with
  | ⟨.number _, _⟩, _ => rfl
  | ⟨.var, _⟩, _ => rfl
  | ⟨.rightParen, _⟩, _ => rfl

theorem isImplicitProduct_of_opens {previous : Option Token} (h : Opens previous) (t : Token) :
    isImplicitProduct previous t = false := by
  match previous, h with
  | none, _ => rfl
  | some ⟨.operator _, _⟩, _ => rfl
  | some ⟨.leftParen, _⟩, _ => rfl

theorem step_of_opens {s : State} (h : Opens s.previous) (t : Token) :
    step s t = noted t (read s t) := by
  simp only [step, missingCall?_of_opens h, isImplicitProduct_of_opens h, Bool.false_eq_true,
    if_false]
  rfl

/-- After a complete operand a token that opens another one is read with a product before it. -/
theorem step_of_adjacent {s : State} {last t : Token} (hs : s.previous = some last)
    (hlast : last.lexeme.endsOperand = true) (ht : t.lexeme.startsOperand = true) :
    step s t = noted t (read (pushOperator (.binary .mul) s) t) := by
  simp only [step, hs, missingCall?_of_ends hlast, isImplicitProduct, hlast, ht, Bool.and_self,
    if_true]
  rfl

theorem step_of_complete {s : State} {last t : Token} (hs : s.previous = some last)
    (hlast : last.lexeme.endsOperand = true) (ht : t.lexeme.startsOperand = false) :
    step s t = noted t (read s t) := by
  simp only [step, hs, missingCall?_of_ends hlast, isImplicitProduct, hlast, ht, Bool.and_false,
    Bool.false_eq_true, if_false]
  rfl

theorem step_of_function {s : State} {name : String} {position : Nat}
    (hs : s.previous = some ⟨.function name, position⟩) {t : Token} {next : State}
    (h : step s t = .ok next) :
    t.lexeme = .leftParen ∧ step s t = noted t (read s t) := by
  obtain ⟨lexeme, place⟩ := t
  simp only [step, hs, missingCall?] at h ⊢
  cases lexeme with
  | leftParen => exact ⟨rfl, rfl⟩
  | number | var | function | operator | rightParen => cases h

theorem noted_read {t : Token} (ht : t.lexeme.startsOperand = true) (s : State)
    (previous : Option Token) :
    noted t (read { s with previous := previous } t) = noted t (read s t) := by
  obtain ⟨lexeme, position⟩ := t
  cases lexeme with
  | number | var | leftParen => rfl
  | function name =>
    simp only [read]
    cases Function.ofName? name <;> rfl
  | operator | rightParen => cases ht

end Compile
end CurveSketch
