import CurveSketch.Proofs.Compilation
import CurveSketch.Proofs.Diagnosis

/-!
# CurveSketch.Proofs.Conservation

Nothing is lost and nothing is added between tokens and program. Each token stands for the
instructions that `Standing.Denotes` says, by whether an operand is expected at its place. The
compiler puts them into the output at once or lets them wait; what waits only ever leaves for the
output (`Leaving`). So the output and what waits are together the instructions of the tokens read
so far (`Tracks.gains_step`, `Tracks.gains_steps`), and at the end nothing waits any more. The
operands are never made to wait, so they keep their order.
-/

namespace CurveSketch

namespace Lexeme

def isOperator (op : BinaryOp) : Lexeme → Bool
  | operator symbol => symbol == op.symbol
  | _ => false

def isFunction (f : Function) : Lexeme → Bool
  | function name => name == f.name
  | _ => false

/-- The instruction that pushes the value of an operand. -/
def push? : Lexeme → Option Instruction
  | number value => some (.const value)
  | var => some .var
  | _ => none

end Lexeme

namespace Instruction

def isPush : Instruction → Bool
  | const _ => true
  | var => true
  | _ => false

def applies (op : Operator) : Instruction → Bool
  | apply other => other == op
  | _ => false

def calls (f : Function) : Instruction → Bool
  | call g => g == f
  | _ => false

end Instruction

/-! ## What the tokens stand for -/

/-- A token where it stands: an operand is expected there or not. -/
structure Standing where
  expects : Bool
  token : Token

namespace Standing

def isInfix (op : BinaryOp) (s : Standing) : Bool :=
  !s.expects && s.token.lexeme.isOperator op

def isSign (s : Standing) : Bool :=
  s.expects && s.token.lexeme.isOperator .sub

/-- The token opens an operand behind a complete one, so a product is understood. -/
def isFactor (s : Standing) : Bool :=
  !s.expects && s.token.lexeme.startsOperand

def product (s : Standing) : List Instruction :=
  if s.isFactor then [.apply (.binary .mul)] else []

/-- What the token itself becomes. Only known functions and well-formed operators become anything,
and where an operand is expected the one operator is the sign. -/
inductive Denotes : Standing → List Instruction → Prop where
  | number (expects : Bool) (value : Float) (position : Nat) :
      Denotes ⟨expects, ⟨.number value, position⟩⟩ [.const value]
  | var (expects : Bool) (position : Nat) : Denotes ⟨expects, ⟨.var, position⟩⟩ [.var]
  | function (expects : Bool) (f : Function) (position : Nat) :
      Denotes ⟨expects, ⟨.function f.name, position⟩⟩ [.call f]
  | sign (position : Nat) :
      Denotes ⟨true, ⟨.operator BinaryOp.sub.symbol, position⟩⟩ [.apply .neg]
  | operator (op : BinaryOp) (position : Nat) :
      Denotes ⟨false, ⟨.operator op.symbol, position⟩⟩ [.apply (.binary op)]
  | leftParen (expects : Bool) (position : Nat) : Denotes ⟨expects, ⟨.leftParen, position⟩⟩ []
  | rightParen (expects : Bool) (position : Nat) : Denotes ⟨expects, ⟨.rightParen, position⟩⟩ []

end Standing

namespace Token

/-- The tokens where they stand; `expects` says whether an operand is expected at the first one,
and every other one is told by the token in front of it. -/
def standings (expects : Bool) (ts : List Token) : List Standing :=
  List.zipWith Standing.mk (expects :: ts.map fun t => t.lexeme.precedesOperand) ts

/-- How many products are understood between the tokens. -/
def products (ts : List Token) : Nat :=
  (standings true ts).countP Standing.isFactor

@[simp] theorem standings_nil (expects : Bool) : standings expects [] = [] := rfl

@[simp] theorem standings_cons (expects : Bool) (t : Token) (ts : List Token) :
    standings expects (t :: ts) = ⟨expects, t⟩ :: standings t.lexeme.precedesOperand ts := rfl

theorem countP_standings (p : Token → Bool) (expects : Bool) (ts : List Token) :
    (standings expects ts).countP (fun s => p s.token) = ts.countP p := by
  induction ts generalizing expects with
  | nil => rfl
  | cons t ts ih => rw [standings_cons, List.countP_cons, List.countP_cons, ih]

/-- The instructions that the tokens become, in the order of the tokens. -/
inductive Denote : Bool → List Token → List Instruction → Prop where
  | nil (expects : Bool) : Denote expects [] []
  | cons {expects : Bool} {t : Token} {ts : List Token} {own is : List Instruction}
      (head : Standing.Denotes ⟨expects, t⟩ own) (tail : Denote t.lexeme.precedesOperand ts is) :
      Denote expects (t :: ts) (Standing.product ⟨expects, t⟩ ++ own ++ is)

end Token

/-! ## What waits in the compiler -/

namespace Compile

open Token

def waiting : List Pending → List Instruction
  | [] => []
  | .operator op :: rest => .apply op :: waiting rest
  | .function f :: rest => .call f :: waiting rest
  | .group _ :: rest => waiting rest

/-- Entries leave from the top of what waits; operators and functions go to the output. -/
inductive Leaving : List Pending → List Instruction → List Pending → List Instruction → Prop where
  | none (pending : List Pending) (output : List Instruction) :
      Leaving pending output pending output
  | operator {pending rest : List Pending} {output out : List Instruction} (op : Operator)
      (h : Leaving pending (.apply op :: output) rest out) :
      Leaving (.operator op :: pending) output rest out
  | function {pending rest : List Pending} {output out : List Instruction} (f : Function)
      (h : Leaving pending (.call f :: output) rest out) :
      Leaving (.function f :: pending) output rest out
  | group {pending rest : List Pending} {output out : List Instruction} (position : Nat)
      (h : Leaving pending output rest out) :
      Leaving (.group position :: pending) output rest out

namespace Leaving

variable {pending rest : List Pending} {output out : List Instruction}

theorem perm (h : Leaving pending output rest out) :
    (out ++ waiting rest).Perm (output ++ waiting pending) := by
  induction h with
  | none pending output => exact .refl _
  | operator op h ih => exact ih.trans List.perm_middle.symm
  | function f h ih => exact ih.trans List.perm_middle.symm
  | group position h ih => exact ih

theorem pushes (h : Leaving pending output rest out) :
    out.filter Instruction.isPush = output.filter Instruction.isPush := by
  induction h with
  | none pending output => rfl
  | operator op h ih => exact ih
  | function f h ih => exact ih
  | group position h ih => exact ih

end Leaving

theorem leaving_release (incoming : Operator) (pending : List Pending)
    (output : List Instruction) :
    Leaving pending output (release incoming pending output).1
      (release incoming pending output).2 := by
  induction pending generalizing output with
  | nil => exact .none [] output
  | cons entry rest ih =>
    cases entry with
    | operator top =>
      unfold release
      split
      · exact .operator top (ih _)
      · exact .none _ output
    | function f => exact .none _ output
    | group position => exact .none _ output

theorem leaving_closeGroup? {pending rest : List Pending} {output out : List Instruction}
    (h : closeGroup? pending output = some (rest, out)) : Leaving pending output rest out := by
  induction pending generalizing output with
  | nil => cases h
  | cons entry entries ih =>
    cases entry with
    | operator op => exact .operator op (ih h)
    | function f => exact .function f (ih h)
    | group position =>
      refine .group position ?_
      cases entries with
      | nil =>
        cases h
        exact .none _ _
      | cons next more =>
        cases next with
        | function f =>
          cases h
          exact .function f (.none _ _)
        | operator op =>
          cases h
          exact .none _ _
        | group inner =>
          cases h
          exact .none _ _

theorem leaving_drain {pending : List Pending} {output out : List Instruction}
    (h : drain pending output = .ok out) : Leaving pending output [] out := by
  induction pending generalizing output with
  | nil =>
    cases h
    exact .none _ _
  | cons entry rest ih =>
    cases entry with
    | operator op => exact .operator op (ih h)
    | function f => exact .function f (ih h)
    | group position => cases h

/-! ## What a state gains -/

/-- All instructions that a state has, in the output or waiting. -/
def State.stock (s : State) : List Instruction :=
  s.output ++ waiting s.pending

/-- The later state has these instructions and those of the earlier one, and the operands among
them are the last ones in its output. -/
structure Gains (s next : State) (is : List Instruction) : Prop where
  stock : next.stock.Perm (is ++ s.stock)
  pushes : next.output.filter Instruction.isPush =
    (is.filter Instruction.isPush).reverse ++ s.output.filter Instruction.isPush

namespace Gains

variable {s mid next : State} {is js : List Instruction}

theorem refl (s : State) : Gains s s [] :=
  ⟨.refl _, rfl⟩

theorem trans (h : Gains s mid is) (h' : Gains mid next js) : Gains s next (is ++ js) where
  stock := by
    have hjoined := h'.stock.trans (h.stock.append_left js)
    rw [← List.append_assoc] at hjoined
    exact hjoined.trans (List.perm_append_comm.append_right _)
  pushes := by
    rw [h'.pushes, h.pushes, List.filter_append, List.reverse_append, List.append_assoc]

end Gains

theorem gains_pushOperator (op : Operator) (s : State) :
    Gains s (pushOperator op s) [.apply op] := by
  have hleaving := leaving_release op s.pending s.output
  exact ⟨List.perm_middle.trans (hleaving.perm.cons _), hleaving.pushes⟩

section Step

variable {front : List Token} {s next : State}

theorem Tracks.isImplicitProduct_eq (h : Tracks front s) (t : Token) :
    isImplicitProduct s.previous t = Standing.isFactor ⟨expectsOperand front, t⟩ := by
  simp only [h.previous, Standing.isFactor, expectsOperand]
  cases front.getLast? with
  | none => rfl
  | some last =>
    obtain ⟨lexeme, position⟩ := last
    cases lexeme <;> rfl

theorem Tracks.gains_prepared (h : Tracks front s) (t : Token) :
    Gains s (prepared s t) (Standing.product ⟨expectsOperand front, t⟩) := by
  rw [prepared, h.isImplicitProduct_eq, Standing.product]
  split
  · exact gains_pushOperator _ s
  · exact .refl s

/-- What a token itself adds, read after the product in front of it. -/
theorem Tracks.gains_read (h : Tracks front s) {t : Token} (wf : t.WellFormed)
    (hread : read (prepared s t) t = .ok next) :
    ∃ own, Standing.Denotes ⟨expectsOperand front, t⟩ own ∧ Gains (prepared s t) next own := by
  obtain ⟨lexeme, position⟩ := t
  cases lexeme with
  | number value =>
    cases hread
    exact ⟨_, .number _ value position, .refl _, rfl⟩
  | var =>
    cases hread
    exact ⟨_, .var _ position, .refl _, rfl⟩
  | leftParen =>
    cases hread
    exact ⟨_, .leftParen _ position, .refl _, rfl⟩
  | function name =>
    simp only [read] at hread
    split at hread
    · rename_i f hf
      cases hread
      rw [name_of_ofName? hf]
      exact ⟨_, .function _ f position, List.perm_middle, rfl⟩
    · cases hread
  | rightParen =>
    rw [prepared_of_not_starts rfl] at hread ⊢
    simp only [read] at hread
    split at hread
    · cases hread
    · split at hread
      · rename_i hclose
        cases hread
        have hleaving := leaving_closeGroup? hclose
        exact ⟨_, .rightParen _ position, hleaving.perm, hleaving.pushes⟩
      · cases hread
  | operator symbol =>
    obtain ⟨op, rfl⟩ := Lexeme.WellFormed.symbol wf
    rw [prepared_of_not_starts rfl] at hread ⊢
    simp only [read, h.expects, ofSymbol?_binary] at hread
    cases hexpects : expectsOperand front with
    | true =>
      rw [hexpects, if_pos rfl] at hread
      split at hread
      · rename_i hsymbol
        cases hread
        rw [beq_iff_eq.mp hsymbol]
        exact ⟨_, .sign position, gains_pushOperator _ s⟩
      · cases hread
    | false =>
      rw [hexpects, if_neg Bool.false_ne_true] at hread
      cases hread
      exact ⟨_, .operator op position, gains_pushOperator _ s⟩

theorem Tracks.gains_step (h : Tracks front s) {t : Token} (wf : t.WellFormed)
    (hstep : Compile.step s t = .ok next) :
    ∃ own, Standing.Denotes ⟨expectsOperand front, t⟩ own ∧
      Gains s next (Standing.product ⟨expectsOperand front, t⟩ ++ own) := by
  rw [step_eq] at hstep
  split at hstep
  · cases hstep
  · cases hread : read (prepared s t) t with
    | error e =>
      rw [hread] at hstep
      cases hstep
    | ok mid =>
      rw [hread] at hstep
      cases hstep
      obtain ⟨own, hown, hgains⟩ := h.gains_read wf hread
      have hboth := (h.gains_prepared t).trans hgains
      exact ⟨own, hown, hboth.stock, hboth.pushes⟩

theorem Tracks.of_step (h : Tracks front s) {t : Token} (wf : t.WellFormed)
    (hstep : Compile.step s t = .ok next) : Tracks (front ++ [t]) next := by
  have hanswer := h.step wf
  cases hfault : violation? front t with
  | some e =>
    rw [hfault, hstep] at hanswer
    cases hanswer
  | none =>
    rw [hfault] at hanswer
    obtain ⟨mid, hmid, htracks⟩ := hanswer
    rw [hstep] at hmid
    cases hmid
    exact htracks

theorem Tracks.gains_steps {us : List Token} (h : Tracks front s) (wf : ∀ u ∈ us, u.WellFormed)
    (hsteps : Compile.steps s us = .ok next) :
    ∃ is, Denote (expectsOperand front) us is ∧ Gains s next is := by
  induction us generalizing front s with
  | nil =>
    cases hsteps
    exact ⟨[], .nil _, .refl _⟩
  | cons u us ih =>
    simp only [Compile.steps] at hsteps
    split at hsteps
    · rename_i mid hstep
      have hu := wf u (by simp)
      obtain ⟨own, hown, hfirst⟩ := h.gains_step hu hstep
      obtain ⟨is, his, hrest⟩ := ih (h.of_step hu hstep) (fun v hv => wf v (by simp [hv])) hsteps
      rw [expectsOperand_concat] at his
      exact ⟨_, .cons hown his, hfirst.trans hrest⟩
    · cases hsteps

end Step

theorem drain_of_finish {s : State} {is : List Instruction} (h : finish s = .ok is) :
    ∃ out, drain s.pending s.output = .ok out ∧ is = out.reverse := by
  unfold finish at h
  split at h
  · cases h
  · split at h
    · cases h
    · split at h
      · rename_i out hdrain
        cases h
        exact ⟨out, hdrain, rfl⟩
      · cases h

/-- At the end nothing waits, and the output has what the tokens become. -/
theorem denote_of_instructions {ts : List Token} {is : List Instruction}
    (wf : ∀ t ∈ ts, t.WellFormed) (h : instructions ts = .ok is) :
    ∃ ds, Denote true ts ds ∧ is.Perm ds ∧
      is.filter Instruction.isPush = ds.filter Instruction.isPush := by
  cases ts with
  | nil => cases h
  | cons t rest =>
    simp only [instructions] at h
    split at h
    · rename_i s hsteps
      obtain ⟨ds, hds, hgains⟩ := Tracks.initial.gains_steps wf hsteps
      obtain ⟨out, hdrain, rfl⟩ := drain_of_finish h
      have hleaving := leaving_drain hdrain
      have hstock := hleaving.perm.trans hgains.stock
      have hpushes := hleaving.pushes.trans hgains.pushes
      simp only [State.stock, State.initial, waiting, List.append_nil, List.filter_nil]
        at hstock hpushes
      refine ⟨ds, hds, (List.reverse_perm out).trans hstock, ?_⟩
      rw [List.filter_reverse, hpushes, List.reverse_reverse]
    · cases h

end Compile

/-! ## Counting instructions -/

theorem Function.name_beq (g f : Function) : (g.name == f.name) = (g == f) := by
  cases g <;> cases f <;> rfl

theorem BinaryOp.symbol_beq (a b : BinaryOp) : (a.symbol == b.symbol) = (a == b) := by
  cases a <;> cases b <;> rfl

namespace Standing

variable {s : Standing} {own : List Instruction}

/-- Neither parenthesis: the token is an operand, a function or an operator. -/
def isPlain (s : Standing) : Bool :=
  !s.token.isOpen && !s.token.isClose

theorem countP_product (p : Instruction → Bool) (s : Standing) :
    s.product.countP p = if p (.apply (.binary .mul)) && s.isFactor then 1 else 0 := by
  unfold product
  cases s.isFactor with
  | true => simp [List.countP_cons]
  | false => simp

theorem Denotes.countP_calls (h : s.Denotes own) (f : Function) :
    own.countP (Instruction.calls f) = if s.token.lexeme.isFunction f then 1 else 0 := by
  cases h with
  | function expects g position =>
    simp [Instruction.calls, Lexeme.isFunction, Function.name_beq, List.countP_cons]
  | number | var | sign | operator | leftParen | rightParen => rfl

theorem Denotes.countP_applies_binary (h : s.Denotes own) (op : BinaryOp) :
    own.countP (Instruction.applies (.binary op)) = if s.isInfix op then 1 else 0 := by
  cases h with
  | operator other position =>
    simp [Instruction.applies, isInfix, Lexeme.isOperator, BinaryOp.symbol_beq, List.countP_cons]
  | number | var | function => simp [Instruction.applies, isInfix, Lexeme.isOperator]
  | sign | leftParen | rightParen => simp [Instruction.applies, isInfix, Lexeme.isOperator]

theorem Denotes.countP_applies_neg (h : s.Denotes own) :
    own.countP (Instruction.applies .neg) = if s.isSign then 1 else 0 := by
  cases h with
  | number | var | function | sign | operator | leftParen | rightParen =>
    simp [Instruction.applies, isSign, Lexeme.isOperator]

theorem Denotes.length_eq (h : s.Denotes own) : own.length = if s.isPlain then 1 else 0 := by
  cases h with
  | number | var | function | sign | operator | leftParen | rightParen => rfl

theorem Denotes.filter_isPush (h : s.Denotes own) :
    own.filter Instruction.isPush = s.token.lexeme.push?.toList := by
  cases h with
  | number | var | function | sign | operator | leftParen | rightParen => rfl

end Standing

namespace Token

theorem Denote.countP {p : Instruction → Bool} {q : Standing → Bool}
    (hown : ∀ s own, Standing.Denotes s own → own.countP p = if q s then 1 else 0)
    {expects : Bool} {ts : List Token} {ds : List Instruction} (h : Denote expects ts ds) :
    ds.countP p = (standings expects ts).countP q +
      if p (.apply (.binary .mul)) then (standings expects ts).countP Standing.isFactor else 0 := by
  induction h with
  | nil expects => simp
  | cons head tail ih =>
    simp only [List.countP_append, Standing.countP_product, hown _ _ head, ih, standings_cons,
      List.countP_cons]
    cases p (.apply (.binary .mul)) with
    | true =>
      simp only [Bool.true_and, if_true]
      omega
    | false =>
      simp only [Bool.false_and, Bool.false_eq_true, if_false]
      omega

theorem Denote.filter_isPush {expects : Bool} {ts : List Token} {ds : List Instruction}
    (h : Denote expects ts ds) :
    ds.filter Instruction.isPush = ts.filterMap fun t => t.lexeme.push? := by
  induction h with
  | nil expects => rfl
  | @cons expects t ts own is head tail ih =>
    have hproduct : (Standing.product ⟨expects, t⟩).filter Instruction.isPush = [] := by
      unfold Standing.product
      split <;> rfl
    rw [List.filter_append, List.filter_append, hproduct, head.filter_isPush, ih,
      List.filterMap_cons]
    cases t.lexeme.push? <;> rfl

theorem countP_isPlain (expects : Bool) (ts : List Token) :
    (standings expects ts).countP Standing.isPlain + (opens ts + closes ts) = ts.length := by
  induction ts generalizing expects with
  | nil => rfl
  | cons t ts ih =>
    have hrest := ih t.lexeme.precedesOperand
    rw [standings_cons, List.countP_cons, opens_cons, closes_cons, List.length_cons]
    by_cases hopen : t.isOpen = true
    · simp [Standing.isPlain, hopen, isClose_of_isOpen hopen]
      omega
    · by_cases hclose : t.isClose = true
      · simp [Standing.isPlain, hopen, hclose]
        omega
      · simp [Standing.isPlain, hopen, hclose]
        omega

theorem products_lt {ts : List Token} (h : ts ≠ []) : products ts < ts.length := by
  cases ts with
  | nil => exact absurd rfl h
  | cons t rest =>
    have hfirst : Standing.isFactor ⟨true, t⟩ = false := rfl
    have hle : (standings t.lexeme.precedesOperand rest).countP Standing.isFactor ≤
        rest.length := by
      calc _ ≤ (standings t.lexeme.precedesOperand rest).length := List.countP_le_length
        _ = rest.length := by simp [standings]
    rw [products, standings_cons, List.countP_cons, hfirst, List.length_cons]
    simpa using Nat.lt_succ_of_le hle

end Token

/-- The instructions are those of the tokens. -/
structure Token.Conserved (ts : List Token) (is : List Instruction) : Prop where
  /-- The operands are pushed in the order of the tokens, with the same values. -/
  pushes : is.filter Instruction.isPush = ts.filterMap fun t => t.lexeme.push?
  calls : ∀ f, is.countP (Instruction.calls f) = ts.countP fun t => t.lexeme.isFunction f
  operators : ∀ op, is.countP (Instruction.applies (.binary op)) =
    (standings true ts).countP (Standing.isInfix op) + if op = .mul then products ts else 0
  signs : is.countP (Instruction.applies .neg) = (standings true ts).countP Standing.isSign
  length : is.length + (opens ts + closes ts) = ts.length + products ts
  bound : is.length ≤ 2 * ts.length - 1

/-- The instructions of a program, up to their order, are what its tokens become, and the operands
keep their order as well. -/
theorem Program.denote_of_ofTokens {ts : List Token} (wf : ∀ t ∈ ts, t.WellFormed)
    {source : String} {p : Program} (h : ofTokens ts source = .ok p) :
    ∃ ds, Token.Denote true ts ds ∧ p.instructions.Perm ds ∧
      p.instructions.filter Instruction.isPush = ts.filterMap fun t => t.lexeme.push? := by
  simp only [ofTokens] at h
  split at h
  · rename_i his
    cases h
    obtain ⟨ds, hds, hperm, hpushes⟩ := Compile.denote_of_instructions wf his
    exact ⟨ds, hds, hperm, hpushes.trans hds.filter_isPush⟩
  · cases h

/-- Nothing is lost and nothing is added between the tokens and the program. -/
theorem Program.ofTokens_conserves {ts : List Token} (wf : ∀ t ∈ ts, t.WellFormed)
    {source : String} {p : Program} (h : ofTokens ts source = .ok p) :
    Token.Conserved ts p.instructions := by
  obtain ⟨ds, hds, hperm, hpushes⟩ := denote_of_ofTokens wf h
  have hlength : p.instructions.length + (Token.opens ts + Token.closes ts) =
      ts.length + Token.products ts := by
    have hcount := hds.countP (p := fun _ => true) fun s own hown => by
      rw [List.countP_true]
      exact hown.length_eq
    have hplain := Token.countP_isPlain true ts
    rw [List.countP_true, if_pos rfl] at hcount
    rw [hperm.length_eq, hcount, Token.products]
    omega
  have hnonempty : ts ≠ [] := by
    rintro rfl
    cases h
  refine ⟨hpushes, ?_, ?_, ?_, hlength, ?_⟩
  · intro f
    rw [hperm.countP_eq, hds.countP fun s own hown => hown.countP_calls f, if_neg nofun,
      Nat.add_zero]
    exact Token.countP_standings (fun t => t.lexeme.isFunction f) true ts
  · intro op
    rw [hperm.countP_eq, hds.countP fun s own hown => hown.countP_applies_binary op,
      Token.products]
    cases op <;> rfl
  · rw [hperm.countP_eq, hds.countP fun s own hown => hown.countP_applies_neg, if_neg nofun,
      Nat.add_zero]
  · have := Token.products_lt hnonempty
    omega

/-- `2x-sin(-x)`: a product that is understood, a minus between operands and one in front of one. -/
def sineDifference : List Token :=
  [⟨.number 2, 0⟩, ⟨.var, 1⟩, ⟨.operator "-", 2⟩, ⟨.function "sin", 3⟩, ⟨.leftParen, 6⟩,
    ⟨.operator "-", 7⟩, ⟨.var, 8⟩, ⟨.rightParen, 9⟩]

/-- Its eight tokens, two of them parentheses, and the product make seven instructions. -/
theorem Program.ofTokens_conserves_sineDifference :
    ∃ is, ofTokens sineDifference "2x-sin(-x)" = .ok ⟨is, "2x-sin(-x)"⟩ ∧
      Token.Conserved sineDifference is ∧ is.length = 7 := by
  have hwf : ∀ t ∈ sineDifference, t.WellFormed := by decide
  have hcompiled : ofTokens sineDifference "2x-sin(-x)" =
      .ok ⟨[.const 2, .var, .apply (.binary .mul), .var, .apply .neg, .call .sin,
        .apply (.binary .sub)], "2x-sin(-x)"⟩ := rfl
  exact ⟨_, hcompiled, ofTokens_conserves hwf hcompiled, rfl⟩

end CurveSketch
