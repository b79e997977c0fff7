import CurveSketch.Proofs.Precedence

/-!
# CurveSketch.Proofs.Reading

What the compiler has read is always the beginning of a derivation. The waiting stack, read from
the outside in, is a path of grammar rules each of which lacks its last operand: `Awaits level`
says that an operand of `level` is to come next, `Carries level` that one has been read. Taking an
operator off the stack completes its rule (`Carries.reduce`), so the loops keep the relation, and
every step of the compiler does (`Reads.step`). At the end of the tokens nothing is lacking, and
the output lists the tree of a derivation (`derives_of_finish`).
-/

namespace CurveSketch
namespace Compile

/-- After these tokens, with this stack and output, the rules that have been begun lack an operand
of that level and nothing else. -/
inductive Awaits : Level → List Token → List Pending → List Instruction → Prop where
  | start : Awaits .sum [] [] []
  | group {level : Level} {ts : List Token} {pending : List Pending} {output : List Instruction}
      (position : Nat) (outer : Awaits level ts pending output) :
      Awaits .sum (ts ++ [⟨.leftParen, position⟩]) (.group position :: pending) output
  | call {level : Level} {ts : List Token} {pending : List Pending} {output : List Instruction}
      (f : Function) (name position : Nat) (outer : Awaits level ts pending output) :
      Awaits .sum (ts ++ [⟨.function f.name, name⟩] ++ [⟨.leftParen, position⟩])
        (.group position :: .function f :: pending) output
  | neg {level : Level} {ts : List Token} {pending : List Pending} {output : List Instruction}
      (position : Nat) (outer : Awaits level ts pending output) (fits : .factor ≤ level) :
      Awaits .factor (ts ++ [⟨.operator BinaryOp.sub.symbol, position⟩])
        (.operator .neg :: pending) output
  | binary {level : Level} {ts us : List Token} {pending : List Pending}
      {output : List Instruction} {l : Expr} (op : BinaryOp) (position : Nat)
      (outer : Awaits level ts pending output) (fits : op.level ≤ level)
      (left : Derives op.leftLevel us l) :
      Awaits (Operator.binary op).operandLevel (ts ++ us ++ [⟨.operator op.symbol, position⟩])
        (.operator (.binary op) :: pending) (l.instructions.reverse ++ output)
  | implicit {level : Level} {ts us : List Token} {pending : List Pending}
      {output : List Instruction} {l : Expr} (outer : Awaits level ts pending output)
      (fits : .product ≤ level) (left : Derives .product us l) :
      Awaits .power (ts ++ us) (.operator (.binary .mul) :: pending)
        (l.instructions.reverse ++ output)

/-- An operand of that level has been read where one was awaited. -/
inductive Carries (level : Level) : List Token → List Pending → List Instruction → Prop where
  | intro {wanted : Level} {ts us : List Token} {pending : List Pending}
      {output : List Instruction} {e : Expr} (outer : Awaits wanted ts pending output)
      (operand : Derives level us e) (fits : level ≤ wanted) :
      Carries level (ts ++ us) pending (e.instructions.reverse ++ output)

theorem Awaits.ne_function {level : Level} {ts : List Token} {pending : List Pending}
    {output : List Instruction} (h : Awaits level ts pending output) (f : Function)
    (rest : List Pending) : pending ≠ .function f :: rest := by
  cases h <;> simp

/-- Where the innermost operator stays for `op`, what `op` makes can be the awaited operand. -/
theorem Awaits.level_le {wanted : Level} {ts : List Token} {pending : List Pending}
    {output : List Instruction} (h : Awaits wanted ts pending output) {op : BinaryOp}
    (stays : ∀ top rest, pending = .operator top :: rest → yields top (.binary op) = false) :
    op.level ≤ wanted := by
  cases h with
  | start => exact Level.le_sum _
  | group => exact Level.le_sum _
  | call => exact Level.le_sum _
  | neg => exact (yields_eq_false_iff _ _).mp (stays _ _ rfl)
  | binary => exact (yields_eq_false_iff _ _).mp (stays _ _ rfl)
  | implicit =>
    -- the right factor is only a power, so the operand of `*` is looser than what is awaited
    have hmul := stays _ _ rfl
    cases op <;> first | decide | exact absurd hmul (by decide)

/-- Taking an operator off the stack completes its rule. -/
theorem Carries.reduce {level : Level} {ts : List Token} {op : Operator}
    {pending : List Pending} {output : List Instruction}
    (h : Carries level ts (.operator op :: pending) output) :
    Carries op.level ts pending (.apply op :: output) := by
  obtain ⟨outer, operand, within⟩ := h
  have operand := operand.loosen within
  cases outer with
  | neg position outer fits =>
    have whole := Carries.intro outer (.neg position operand) fits
    simpa [Expr.instructions, Operator.level] using whole
  | binary op position outer fits left =>
    have whole := Carries.intro outer (.binary op position left operand) fits
    simpa [Expr.instructions, Operator.level] using whole
  | implicit outer fits left =>
    have whole := Carries.intro outer (.implicit left operand) fits
    simpa [Expr.instructions, Operator.level, BinaryOp.level] using whole

/-- What has been read is the left operand of `op`, and what `op` makes can be the awaited
operand. -/
inductive Precedes (op : BinaryOp) : List Token → List Pending → List Instruction → Prop where
  | intro {wanted : Level} {ts us : List Token} {pending : List Pending}
      {output : List Instruction} {l : Expr} (outer : Awaits wanted ts pending output)
      (fits : op.level ≤ wanted) (left : Derives op.leftLevel us l) :
      Precedes op (ts ++ us) pending (l.instructions.reverse ++ output)

theorem Carries.precedes {level : Level} {ts : List Token} {op : BinaryOp}
    {pending : List Pending} {output : List Instruction} (h : Carries level ts pending output)
    (hl : level ≤ op.leftLevel)
    (stays : ∀ top rest, pending = .operator top :: rest → yields top (.binary op) = false) :
    Precedes op ts pending output := by
  obtain ⟨outer, operand, -⟩ := h
  exact .intro outer (outer.level_le stays) (operand.loosen hl)

theorem Carries.release {level : Level} {ts : List Token} {op : BinaryOp}
    {pending rest : List Pending} {output out : List Instruction}
    (h : Carries level ts pending output) (hl : level ≤ op.leftLevel)
    (hrelease : Compile.release (.binary op) pending output = (rest, out)) :
    Precedes op ts rest out := by
  -- on the waiting stack: each operator that leaves makes a new, looser operand
  induction pending generalizing level output with
  | nil =>
    cases hrelease
    exact h.precedes hl (by simp)
  | cons entry waiting ih =>
    cases entry with
    | operator top =>
      simp only [Compile.release] at hrelease
      split at hrelease
      · rename_i hyields
        exact ih h.reduce ((yields_iff top op).mp hyields) hrelease
      · rename_i hstays
        cases hrelease
        refine h.precedes hl ?_
        intro top' rest' heq
        cases heq
        exact Bool.not_eq_true _ ▸ hstays
    | function f =>
      cases hrelease
      exact h.precedes hl (by simp)
    | group position =>
      cases hrelease
      exact h.precedes hl (by simp)

theorem Carries.pushOperator {level : Level} {ts : List Token} {op : BinaryOp}
    {pending : List Pending} {output : List Instruction} (h : Carries level ts pending output)
    (hl : level ≤ op.leftLevel) (expects : Bool) (previous : Option Token) :
    ∃ rest out, Precedes op ts rest out ∧
      Compile.pushOperator (.binary op) ⟨output, pending, expects, previous⟩ =
        ⟨out, .operator (.binary op) :: rest, true, previous⟩ := by
  cases hrelease : Compile.release (.binary op) pending output with
  | mk rest out =>
    exact ⟨rest, out, h.release hl hrelease, by simp only [Compile.pushOperator, hrelease]⟩

theorem Carries.closeGroup {level : Level} {ts : List Token} {pending rest : List Pending}
    {output out : List Instruction} (h : Carries level ts pending output)
    (hclose : closeGroup? pending output = some (rest, out)) (position : Nat) :
    Carries .atom (ts ++ [⟨.rightParen, position⟩]) rest out := by
  induction pending generalizing level output with
  | nil => cases hclose
  | cons entry waiting ih =>
    cases entry with
    | operator op => exact ih h.reduce hclose
    | function f =>
      obtain ⟨outer, -, -⟩ := h
      exact absurd rfl (outer.ne_function f waiting)
    | group opening =>
      obtain ⟨outer, operand, fits⟩ := h
      have inside := operand.loosen fits
      cases outer with
      | group _ outer =>
        rw [closeGroup?_group outer.ne_function] at hclose
        cases hclose
        have whole := Carries.intro outer (.group opening position inside) (Level.atom_le _)
        simpa using whole
      | call f name _ outer =>
        cases hclose
        have whole := Carries.intro outer (.call f name opening position inside) (Level.atom_le _)
        simpa [Expr.instructions] using whole

theorem Carries.drain {level : Level} {ts : List Token} {pending : List Pending}
    {output out : List Instruction} (h : Carries level ts pending output)
    (hdrain : drain pending output = .ok out) :
    ∃ e, Derives .sum ts e ∧ out = e.instructions.reverse := by
  induction pending generalizing level output with
  | nil =>
    obtain ⟨outer, operand, fits⟩ := h
    cases outer
    cases hdrain
    exact ⟨_, operand.loosen fits, by simp⟩
  | cons entry rest ih =>
    cases entry with
    | operator op => exact ih h.reduce hdrain
    | function f =>
      obtain ⟨outer, -, -⟩ := h
      exact absurd rfl (outer.ne_function f rest)
    | group position => cases hdrain

/-! ## Steps -/

/-- What the state of the compiler says about the tokens it has read: an operand is awaited, or the
name of a function has been read, or an operand is complete. -/
inductive Reads : List Token → State → Prop where
  | operand {wanted : Level} {ts : List Token} {pending : List Pending}
      {output : List Instruction} {previous : Option Token} (h : Awaits wanted ts pending output)
      (fits : .factor ≤ wanted) (opens : Opens previous) :
      Reads ts ⟨output, pending, true, previous⟩
  | name {wanted : Level} {ts : List Token} {pending : List Pending}
      {output : List Instruction} (f : Function) (position : Nat)
      (h : Awaits wanted ts pending output) :
      Reads (ts ++ [⟨.function f.name, position⟩])
        ⟨output, .function f :: pending, true, some ⟨.function f.name, position⟩⟩
  | complete {ts : List Token} {pending : List Pending} {output : List Instruction}
      {last : Token} (h : Carries .atom ts pending output)
      (ends : last.lexeme.endsOperand = true) :
      Reads ts ⟨output, pending, false, some last⟩

theorem ofSymbol?_binary (op : BinaryOp) :
    Operator.ofSymbol? op.symbol = some (.binary op) :=
  Operator.ofSymbol?_symbol (.binary op)

theorem name_of_ofName? {name : String} {f : Function} (h : Function.ofName? name = some f) :
    name = f.name := by
  have hf := List.find?_some h
  exact (beq_iff_eq.mp hf).symm

theorem Awaits.read {wanted : Level} {ts : List Token} {pending : List Pending}
    {output : List Instruction} (h : Awaits wanted ts pending output) {previous : Option Token}
    {t : Token} (ht : t.lexeme.startsOperand = true) {next : State}
    (hread : noted t (Compile.read ⟨output, pending, true, previous⟩ t) = .ok next) :
    Reads (ts ++ [t]) next := by
  obtain ⟨lexeme, position⟩ := t
  cases lexeme with
  | number value =>
    cases hread
    exact .complete (.intro h (.number value position) (Level.atom_le wanted)) rfl
  | var =>
    cases hread
    exact .complete (.intro h (.var position) (Level.atom_le wanted)) rfl
  | function name =>
    simp only [Compile.read] at hread
    cases hf : Function.ofName? name with
    | none => rw [hf] at hread; cases hread
    | some f =>
      rw [hf] at hread
      cases hread
      obtain rfl := name_of_ofName? hf
      exact .name f position h
  | leftParen =>
    cases hread
    exact .operand (.group position h) (by decide) trivial
  | operator symbol => cases ht
  | rightParen => cases ht

theorem Reads.step {ts : List Token} {s next : State} {t : Token} (h : Reads ts s)
    (wf : t.WellFormed) (hstep : Compile.step s t = .ok next) : Reads (ts ++ [t]) next := by
  obtain ⟨lexeme, position⟩ := t
  cases h with
  | operand h fits opens =>
    rw [step_of_opens opens] at hstep
    cases lexeme with
    | number | var | function | leftParen => exact h.read rfl hstep
    | rightParen => cases hstep
    | operator symbol =>
      simp only [Compile.read, if_true] at hstep
      split at hstep
      · rename_i hsign
        obtain rfl := beq_iff_eq.mp hsign
        simp only [pushOperator, release_neg] at hstep
        cases hstep
        exact .operand (.neg position h fits) (by decide) trivial
      · cases hstep
  | name f place h =>
    obtain ⟨hparen, hread⟩ := step_of_function rfl hstep
    simp only at hparen
    subst hparen
    rw [hread] at hstep
    cases hstep
    exact .operand (.call f place position h) (by decide) trivial
  | @complete _ _ _ last h ends =>
    cases hs : lexeme.startsOperand with
    | true =>
      -- the product is pushed first, then the token opens its right factor
      obtain ⟨rest, out, hleft, hpush⟩ :=
        h.pushOperator (Level.atom_le BinaryOp.mul.leftLevel) false (some last)
      rw [step_of_adjacent rfl ends hs, hpush] at hstep
      obtain ⟨outer, fits, left⟩ := hleft
      exact (Awaits.implicit outer fits left).read hs hstep
    | false =>
      rw [step_of_complete rfl ends hs] at hstep
      cases lexeme with
      | number | var | function | leftParen => cases hs
      | rightParen =>
        simp only [Compile.read, Bool.false_eq_true, if_false] at hstep
        split at hstep
        · rename_i hclose
          cases hstep
          exact .complete (h.closeGroup hclose position) rfl
        · cases hstep
      | operator symbol =>
        obtain ⟨op, rfl⟩ := Lexeme.WellFormed.symbol wf
        obtain ⟨rest, out, hleft, hpush⟩ :=
          h.pushOperator (Level.atom_le op.leftLevel) false (some last)
        simp only [Compile.read, Bool.false_eq_true, if_false, ofSymbol?_binary, hpush] at hstep
        cases hstep
        obtain ⟨outer, fits, left⟩ := hleft
        refine .operand (.binary op position outer fits left) ?_ trivial
        cases op <;> decide

theorem Reads.initial : Reads [] .initial :=
  .operand .start (by decide) trivial

theorem Reads.steps {ts us : List Token} {s next : State} (h : Reads ts s)
    (wf : ∀ t ∈ us, t.WellFormed) (hsteps : Compile.steps s us = .ok next) :
    Reads (ts ++ us) next := by
  induction us generalizing ts s with
  | nil =>
    cases hsteps
    rwa [List.append_nil]
  | cons t us ih =>
    simp only [Compile.steps] at hsteps
    cases hstep : Compile.step s t with
    | error e => rw [hstep] at hsteps; cases hsteps
    | ok mid =>
      rw [hstep] at hsteps
      have hmid := h.step (wf t (by simp)) hstep
      have hrest := ih hmid (fun u hu => wf u (by simp [hu])) hsteps
      rwa [List.append_assoc, List.singleton_append] at hrest

theorem derives_of_finish {ts : List Token} {s : State} {is : List Instruction} (h : Reads ts s)
    (hfinish : finish s = .ok is) : ∃ e, Derives .sum ts e ∧ is = e.instructions := by
  cases h with
  | operand h fits opens =>
    simp only [finish, missingCall?_of_opens opens, if_true] at hfinish
    cases hfinish
  | name f position h => cases hfinish
  | complete h ends =>
    simp only [finish, missingCall?_of_ends ends, Bool.false_eq_true, if_false] at hfinish
    split at hfinish
    · rename_i out hdrain
      cases hfinish
      obtain ⟨e, he, rfl⟩ := h.drain hdrain
      exact ⟨e, he, List.reverse_reverse _⟩
    · cases hfinish

theorem derives_of_instructions {ts : List Token} {is : List Instruction}
    (wf : ∀ t ∈ ts, t.WellFormed) (h : instructions ts = .ok is) :
    ∃ e, Derives .sum ts e ∧ is = e.instructions := by
  cases ts with
  | nil => cases h
  | cons t rest =>
    simp only [instructions] at h
    split at h
    · rename_i s hsteps
      have hreads := Reads.initial.steps wf hsteps
      exact derives_of_finish hreads h
    · cases h

end Compile
end CurveSketch
