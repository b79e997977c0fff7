import CurveSketch.Proofs.Postfix
import CurveSketch.Proofs.Reading

/-!
# CurveSketch.Proofs.Compilation

The compiler against the grammar. `Compiles level ts e` says that from every state ready for an
operand of that level the tokens are read without an error, that what waited before stays, and
that the operators left on top of it complete the listing of `e`. Each rule of the grammar keeps
`Compiles`, so every derivation is compiled (`instructions_of_derives`); together with
`derives_of_instructions` the compiler accepts exactly the grammar and lists the one tree of what
it accepts (`ofTokens_eq_ok_iff_derives`).
-/

namespace CurveSketch
namespace Compile

structure Ready (level : Level) (s : State) : Prop where
  expects : s.expectsOperand = true
  admits : Admits level s.pending
  opens : Opens s.previous

/-- The operator leaves for every operator with left operands of that level. -/
def Leaves (level : Level) (top : Operator) : Prop :=
  ∀ op : BinaryOp, level ≤ op.leftLevel → yields top (.binary op) = true

/-- Between the two states an operand with that tree has been read. Operators that complete it may
still wait, but leave as soon as the operand is used. -/
structure Completes (level : Level) (s : State) (e : Expr) (next : State) : Prop where
  operators : ∃ ops : List Operator, (∀ top ∈ ops, Leaves level top) ∧
    next.pending = ops.map .operator ++ s.pending ∧
    flush ops next.output = e.instructions.reverse ++ s.output
  expects : next.expectsOperand = false
  ends : ∃ last, next.previous = some last ∧ last.lexeme.endsOperand = true

/-- The state in which an operator waits for the operand that follows it. -/
def State.awaiting (s : State) (op : Operator) (output : List Instruction)
    (previous : Option Token) : State :=
  ⟨output, .operator op :: s.pending, true, previous⟩

/-- The tokens are compiled as an operand of that level with that tree. -/
def Compiles (level : Level) (ts : List Token) (e : Expr) : Prop :=
  ∀ s, Ready level s → ∃ next, steps s ts = .ok next ∧ Completes level s e next

theorem Ready.tighten {a b : Level} {s : State} (h : Ready b s) (hab : a ≤ b) : Ready a s :=
  ⟨h.expects, h.admits.tighten hab, h.opens⟩

theorem Ready.awaiting (s : State) (op : Operator) (output : List Instruction)
    (previous : Option Token) (h : Opens previous) :
    Ready op.operandLevel (s.awaiting op output previous) :=
  ⟨rfl, Nat.le_refl _, h⟩

theorem steps_cons {s next : State} {t : Token} (h : step s t = .ok next) (us : List Token) :
    steps s (t :: us) = steps next us := by
  simp only [steps, h]

theorem steps_append_ok {s next : State} {ts : List Token} (h : steps s ts = .ok next)
    (us : List Token) : steps s (ts ++ us) = steps next us := by
  rw [steps_append, h]

namespace Completes

variable {level : Level} {s next : State} {e : Expr}

theorem loosen {b : Level} (h : Completes level s e next) (hb : level ≤ b) :
    Completes b s e next := by
  obtain ⟨⟨ops, hleave, hpending, houtput⟩, hexpects, hends⟩ := h
  refine ⟨⟨ops, ?_, hpending, houtput⟩, hexpects, hends⟩
  intro top htop op hop
  exact hleave top htop op (Level.le_trans hb hop)

theorem closeGroup?_eq (h : Completes level s e next) :
    closeGroup? next.pending next.output =
      closeGroup? s.pending (e.instructions.reverse ++ s.output) := by
  obtain ⟨⟨ops, -, hpending, houtput⟩, -, -⟩ := h
  rw [hpending, closeGroup?_operators, houtput]

theorem drain_eq (h : Completes level s e next) :
    drain next.pending next.output = drain s.pending (e.instructions.reverse ++ s.output) := by
  obtain ⟨⟨ops, -, hpending, houtput⟩, -, -⟩ := h
  rw [hpending, drain_operators, houtput]

theorem pushOperator_eq (op : BinaryOp) (h : Completes op.leftLevel s e next)
    (hs : Admits op.level s.pending) :
    pushOperator (.binary op) next =
      s.awaiting (.binary op) (e.instructions.reverse ++ s.output) next.previous := by
  obtain ⟨⟨ops, hleave, hpending, houtput⟩, -, -⟩ := h
  have hall : ∀ top ∈ ops, yields top (.binary op) = true :=
    fun top htop => hleave top htop op (Nat.le_refl _)
  simp only [State.awaiting, pushOperator, hpending, release_operators hall, houtput,
    release_of_admits hs]

theorem step_operator (op : BinaryOp) (h : Completes op.leftLevel s e next)
    (hs : Admits op.level s.pending) (position : Nat) :
    step next ⟨.operator op.symbol, position⟩ =
      .ok (s.awaiting (.binary op) (e.instructions.reverse ++ s.output)
        (some ⟨.operator op.symbol, position⟩)) := by
  obtain ⟨last, hlast, hends⟩ := h.ends
  rw [step_of_complete hlast hends rfl]
  simp only [read, h.expects, Bool.false_eq_true, if_false, ofSymbol?_binary,
    h.pushOperator_eq op hs, noted, State.awaiting]

theorem step_rightParen (h : Completes level s e next) {pending : List Pending}
    {output : List Instruction}
    (hclose : closeGroup? s.pending (e.instructions.reverse ++ s.output) = some (pending, output))
    (position : Nat) :
    step next ⟨.rightParen, position⟩ =
      .ok ⟨output, pending, false, some ⟨.rightParen, position⟩⟩ := by
  obtain ⟨last, hlast, hends⟩ := h.ends
  rw [step_of_complete hlast hends rfl]
  simp only [read, h.expects, Bool.false_eq_true, if_false, h.closeGroup?_eq, hclose, noted]

/-- The last operand of an operator completes what the operator makes. -/
theorem join {inner : Level} {op : Operator} {output : List Instruction}
    {previous : Option Token} {whole : Expr}
    (h : Completes inner (s.awaiting op output previous) e next) (hop : op.level ≤ level)
    (hinner : ∀ after : BinaryOp, level ≤ after.leftLevel → inner ≤ after.leftLevel)
    (hwhole : whole.instructions.reverse ++ s.output =
      .apply op :: (e.instructions.reverse ++ output)) :
    Completes level s whole next := by
  obtain ⟨⟨ops, hleave, hpending, houtput⟩, hexpects, hends⟩ := h
  refine ⟨⟨ops ++ [op], ?_, ?_, ?_⟩, hexpects, hends⟩
  · intro top htop after hafter
    -- what completed the operand leaves as before, and `op` leaves after it
    rcases List.mem_append.mp htop with htop | htop
    · exact hleave top htop after (hinner after hafter)
    · rw [List.mem_singleton.mp htop, yields_iff]
      exact Level.le_trans hop hafter
  · simp [hpending, State.awaiting]
  · rw [flush_concat, houtput, hwhole]
    rfl

end Completes

/-! ## The rules of the grammar -/

namespace Compiles

variable {ts us : List Token} {e l r : Expr}

theorem loosen {a b : Level} (h : Compiles a ts e) (hab : a ≤ b) : Compiles b ts e := by
  intro s hs
  obtain ⟨next, hsteps, hnext⟩ := h s (hs.tighten hab)
  exact ⟨next, hsteps, hnext.loosen hab⟩

theorem number (value : Float) (position : Nat) :
    Compiles .atom [⟨.number value, position⟩] (.const value) := by
  intro s hs
  have hstep := step_of_opens hs.opens ⟨.number value, position⟩
  exact ⟨_, steps_cons hstep [], ⟨⟨[], by simp, rfl, rfl⟩, rfl, ⟨_, rfl, rfl⟩⟩⟩

theorem var (position : Nat) : Compiles .atom [⟨.var, position⟩] .var := by
  intro s hs
  have hstep := step_of_opens hs.opens ⟨.var, position⟩
  exact ⟨_, steps_cons hstep [], ⟨⟨[], by simp, rfl, rfl⟩, rfl, ⟨_, rfl, rfl⟩⟩⟩

theorem binary (op : BinaryOp) (position : Nat) (left : Compiles op.leftLevel ts l)
    (right : Compiles (Operator.binary op).operandLevel us r) :
    Compiles op.level (ts ++ ⟨.operator op.symbol, position⟩ :: us) (.binary op l r) := by
  intro s hs
  have hleft : op.leftLevel ≤ op.level := by cases op <;> decide
  obtain ⟨mid, hmid, hl⟩ := left s (hs.tighten hleft)
  have hstep := hl.step_operator op hs.admits position
  have hready := Ready.awaiting s (.binary op) (l.instructions.reverse ++ s.output)
    (some ⟨.operator op.symbol, position⟩) trivial
  obtain ⟨next, hnext, hr⟩ := right _ hready
  refine ⟨next, ?_, hr.join (Nat.le_refl _) ?_ (by simp [Expr.instructions])⟩
  · rw [steps_append_ok hmid, steps_cons hstep, hnext]
  · cases op <;> intro after <;> cases after <;> decide

theorem implicit (left : Compiles .product ts l) (right : Compiles .power us r)
    (starts : ∃ t rest, us = t :: rest ∧ t.lexeme.startsOperand = true) :
    Compiles .product (ts ++ us) (.binary .mul l r) := by
  intro s hs
  obtain ⟨t, rest, rfl, ht⟩ := starts
  obtain ⟨mid, hmid, hl⟩ := left s hs
  obtain ⟨last, hlast, hends⟩ := hl.ends
  have hready := Ready.awaiting s (.binary .mul) (l.instructions.reverse ++ s.output)
    none trivial
  obtain ⟨next, hnext, hr⟩ := right _ (hready.tighten (by decide))
  have hstep : step mid t =
      step (s.awaiting (.binary .mul) (l.instructions.reverse ++ s.output) none) t := by
    rw [step_of_adjacent hlast hends ht, Completes.pushOperator_eq .mul hl hs.admits,
      step_of_opens hready.opens]
    exact noted_read ht (s.awaiting (.binary .mul) _ none) mid.previous
  refine ⟨next, ?_, hr.join (by decide) ?_ (by simp [Expr.instructions])⟩
  · rw [steps_append_ok hmid, ← hnext]
    simp only [steps, hstep]
  · intro after
    cases after <;> decide

theorem neg (position : Nat) (operand : Compiles .factor ts e) :
    Compiles .factor (⟨.operator BinaryOp.sub.symbol, position⟩ :: ts) (.neg e) := by
  intro s hs
  have hstep : step s ⟨.operator BinaryOp.sub.symbol, position⟩ =
      .ok (s.awaiting .neg s.output (some ⟨.operator BinaryOp.sub.symbol, position⟩)) := by
    rw [step_of_opens hs.opens]
    simp only [read, hs.expects, if_true, BEq.rfl, pushOperator, release_neg]
    rfl
  have hready := Ready.awaiting s .neg s.output
    (some ⟨.operator BinaryOp.sub.symbol, position⟩) trivial
  obtain ⟨next, hnext, hoperand⟩ := operand _ hready
  refine ⟨next, ?_, hoperand.join (by decide) (fun _ h => h) (by simp [Expr.instructions])⟩
  rw [steps_cons hstep, hnext]

/-- What is inside a parenthesis is compiled as a sum, and closing it makes an atom. -/
theorem closed {s opened : State} {closing : Nat} {whole : Expr} (h : Compiles .sum ts e)
    (hready : Ready .sum opened)
    (hclose : closeGroup? opened.pending (e.instructions.reverse ++ opened.output) =
      some (s.pending, whole.instructions.reverse ++ s.output)) :
    ∃ next, steps opened (ts ++ [⟨.rightParen, closing⟩]) = .ok next ∧
      Completes .atom s whole next := by
  obtain ⟨mid, hmid, hinside⟩ := h opened hready
  have hstep := hinside.step_rightParen hclose closing
  refine ⟨⟨whole.instructions.reverse ++ s.output, s.pending, false,
    some ⟨.rightParen, closing⟩⟩, ?_, ⟨⟨[], by simp, rfl, rfl⟩, rfl, ⟨_, rfl, rfl⟩⟩⟩
  rw [steps_append_ok hmid, steps_cons hstep]
  rfl

theorem group (opening closing : Nat) (inside : Compiles .sum ts e) :
    Compiles .atom (⟨.leftParen, opening⟩ :: (ts ++ [⟨.rightParen, closing⟩])) e := by
  intro s hs
  have hstep := step_of_opens hs.opens ⟨.leftParen, opening⟩
  rw [steps_cons hstep]
  refine closed inside ⟨rfl, trivial, trivial⟩ (closeGroup?_group ?_ opening _)
  intro f rest heq
  have hadmits := hs.admits
  rw [heq] at hadmits
  exact hadmits

theorem call (f : Function) (name opening closing : Nat) (argument : Compiles .sum ts e) :
    Compiles .atom
      (⟨.function f.name, name⟩ :: ⟨.leftParen, opening⟩ :: (ts ++ [⟨.rightParen, closing⟩]))
      (.call f e) := by
  intro s hs
  have hname : step s ⟨.function f.name, name⟩ =
      .ok ⟨s.output, .function f :: s.pending, s.expectsOperand,
        some ⟨.function f.name, name⟩⟩ := by
    rw [step_of_opens hs.opens]
    simp only [read, Function.ofName?_name, noted]
  rw [steps_cons hname]
  have hparen : step ⟨s.output, .function f :: s.pending, s.expectsOperand,
      some ⟨.function f.name, name⟩⟩ ⟨.leftParen, opening⟩ =
      .ok ⟨s.output, .group opening :: .function f :: s.pending, true,
        some ⟨.leftParen, opening⟩⟩ := rfl
  rw [steps_cons hparen]
  exact closed argument ⟨rfl, trivial, trivial⟩ (by simp [closeGroup?, Expr.instructions])

end Compiles

theorem compiles_of_derives {level : Level} {ts : List Token} {e : Expr}
    (h : Derives level ts e) : Compiles level ts e := by
  induction h with
  | sum op position level left right ihl ihr =>
    -- `level` leaves the two operators of sums
    cases op with
    | add => exact .binary .add position ihl ihr
    | sub => exact .binary .sub position ihl ihr
    | mul | div | pow => cases level
  | product op position level left right ihl ihr =>
    cases op with
    | mul => exact .binary .mul position ihl ihr
    | div => exact .binary .div position ihl ihr
    | add | sub | pow => cases level
  | power position base exponent ihb ihe => exact .binary .pow position ihb ihe
  | implicit left right ihl ihr => exact .implicit ihl ihr (right.starts (by decide))
  | ofProduct h ih => exact ih.loosen (by decide)
  | ofFactor h ih => exact ih.loosen (by decide)
  | ofPower h ih => exact ih.loosen (by decide)
  | ofAtom h ih => exact ih.loosen (by decide)
  | neg position operand ih => exact .neg position ih
  | number value position => exact .number value position
  | var position => exact .var position
  | call f name opening closing argument ih => exact .call f name opening closing ih
  | group opening closing inside ih => exact .group opening closing ih

theorem instructions_of_derives {ts : List Token} {e : Expr} (h : Derives .sum ts e) :
    instructions ts = .ok e.instructions := by
  obtain ⟨next, hsteps, hnext⟩ := compiles_of_derives h .initial ⟨rfl, trivial, trivial⟩
  obtain ⟨last, hlast, hends⟩ := hnext.ends
  have hfinish : finish next = .ok e.instructions := by
    simp only [finish, hlast, missingCall?_of_ends hends, hnext.expects, Bool.false_eq_true,
      if_false, hnext.drain_eq]
    simp [State.initial, drain]
  cases ts with
  | nil => exact absurd rfl h.ne_nil
  | cons t rest => simp only [instructions, hsteps, hfinish]

end Compile

theorem Derives.unique {ts : List Token} {e e' : Expr} (h : Derives .sum ts e)
    (h' : Derives .sum ts e') : e = e' := by
  have heq := Compile.instructions_of_derives h
  rw [Compile.instructions_of_derives h'] at heq
  exact Program.instructions_injective (Except.ok.inj heq).symm

namespace Program

theorem ofTokens_of_derives {ts : List Token} {e : Expr} (h : Derives .sum ts e)
    (source : String) : ofTokens ts source = .ok ⟨e.instructions, source⟩ := by
  simp only [ofTokens, Compile.instructions_of_derives h]

theorem derives_of_ofTokens {ts : List Token} {source : String} {p : Program}
    (wf : ∀ t ∈ ts, t.WellFormed) (h : ofTokens ts source = .ok p) :
    ∃ e, Derives .sum ts e ∧ p = ⟨e.instructions, source⟩ := by
  simp only [ofTokens] at h
  split at h
  · rename_i is his
    cases h
    obtain ⟨e, he, rfl⟩ := Compile.derives_of_instructions wf his
    exact ⟨e, he, rfl⟩
  · cases h

/-- The compiler accepts exactly the expressions of the grammar and lists their trees. Every
accepted list of tokens has one tree. Among the trees, a sign takes in the power after it, also in
an exponent; powers group to the right; and an understood product comes after the power in front
of it. -/
theorem ofTokens_eq_ok_iff_derives (source : String) :
    (∀ ts : List Token, (∀ t ∈ ts, t.WellFormed) →
      ((∃ p, ofTokens ts source = .ok p) ↔ ∃ e, Derives .sum ts e) ∧
      ∀ p, ofTokens ts source = .ok p →
        ∃ e, (∀ e', Derives .sum ts e' ↔ e' = e) ∧ p = ⟨e.instructions, source⟩) ∧
    (∀ (i j : Nat) (as bs : List Token) (a b : Expr), Derives .atom as a → Derives .factor bs b →
      ofTokens (⟨.operator "-", i⟩ :: (as ++ ⟨.operator "^", j⟩ :: bs)) source =
        .ok ⟨(Expr.neg (.binary .pow a b)).instructions, source⟩) ∧
    (∀ (i j k : Nat) (as bs cs : List Token) (a b c : Expr), Derives .atom as a →
      Derives .atom bs b → Derives .factor cs c →
      ofTokens (as ++ ⟨.operator "^", i⟩ :: ⟨.operator "-", j⟩ :: (bs ++ ⟨.operator "^", k⟩ :: cs))
        source = .ok ⟨(Expr.binary .pow a (.neg (.binary .pow b c))).instructions, source⟩) ∧
    (∀ (i j : Nat) (as bs cs : List Token) (a b c : Expr), Derives .atom as a →
      Derives .atom bs b → Derives .factor cs c →
      ofTokens (as ++ ⟨.operator "^", i⟩ :: (bs ++ ⟨.operator "^", j⟩ :: cs)) source =
        .ok ⟨(Expr.binary .pow a (.binary .pow b c)).instructions, source⟩) ∧
    (∀ (i : Nat) (as bs cs : List Token) (a b c : Expr), Derives .atom as a →
      Derives .factor bs b → Derives .power cs c →
      ofTokens (as ++ ⟨.operator "^", i⟩ :: bs ++ cs) source =
        .ok ⟨(Expr.binary .mul (.binary .pow a b) c).instructions, source⟩) := by
  refine ⟨?_, ?_, ?_, ?_, ?_⟩
  · intro ts wf
    refine ⟨⟨?_, ?_⟩, ?_⟩
    · rintro ⟨p, hp⟩
      obtain ⟨e, he, -⟩ := derives_of_ofTokens wf hp
      exact ⟨e, he⟩
    · rintro ⟨e, he⟩
      exact ⟨_, ofTokens_of_derives he source⟩
    · intro p hp
      obtain ⟨e, he, hlist⟩ := derives_of_ofTokens wf hp
      refine ⟨e, fun e' => ⟨fun he' => he'.unique he, ?_⟩, hlist⟩
      rintro rfl
      exact he
  · intro i j as bs a b ha hb
    have hpower : Derives .power _ _ := .power j ha hb
    exact ofTokens_of_derives (Derives.neg i (.ofPower hpower) |>.loosen (by decide)) source
  · intro i j k as bs cs a b c ha hb hc
    have hpower : Derives .power _ _ := .power k hb hc
    have hsign : Derives .factor _ _ := .neg j (.ofPower hpower)
    exact ofTokens_of_derives (Derives.power i ha hsign |>.loosen (by decide)) source
  · intro i j as bs cs a b c ha hb hc
    have hpower : Derives .power _ _ := .power j hb hc
    exact ofTokens_of_derives (Derives.power i ha (.ofPower hpower) |>.loosen (by decide)) source
  · intro i as bs cs a b c ha hb hc
    have hpower : Derives .power _ _ := .power i ha hb
    have hproduct := Derives.implicit (hpower.loosen (by decide)) hc
    exact ofTokens_of_derives (hproduct.loosen (by decide)) source

/-- `2^-x x`: a sign in an exponent, and an understood product after it. -/
def signedExponent : List Token :=
  [⟨.number 2, 0⟩, ⟨.operator "^", 1⟩, ⟨.operator "-", 2⟩, ⟨.var, 3⟩, ⟨.var, 5⟩]

/-- `2^-x x` is `(2^(-x))*x`. -/
theorem ofTokens_signed_exponent :
    (∀ t ∈ signedExponent, t.WellFormed) ∧
    ofTokens signedExponent "2^-x x" =
      .ok ⟨[.const 2, .var, .apply .neg, .apply (.binary .pow), .var, .apply (.binary .mul)],
        "2^-x x"⟩ ∧
    ∃ e, (∀ e', Derives .sum signedExponent e' ↔ e' = e) ∧
      e.instructions =
        [.const 2, .var, .apply .neg, .apply (.binary .pow), .var, .apply (.binary .mul)] := by
  have hwf : ∀ t ∈ signedExponent, t.WellFormed := by decide
  have hsign : Derives .factor [⟨.operator "-", 2⟩, ⟨.var, 3⟩] (.neg .var) :=
    .neg 2 (.ofPower (.ofAtom (.var 3)))
  have hfactor : Derives .power [⟨.var, 5⟩] .var := .ofAtom (.var 5)
  have hcompiled := (ofTokens_eq_ok_iff_derives "2^-x x").2.2.2.2 1 _ _ _ _ _ _
    (.number 2 0) hsign hfactor
  obtain ⟨e, hunique, hlist⟩ :=
    ((ofTokens_eq_ok_iff_derives "2^-x x").1 signedExponent hwf).2 _ hcompiled
  exact ⟨hwf, hcompiled, e, hunique, (congrArg instructions hlist).symm⟩

end Program
end CurveSketch
