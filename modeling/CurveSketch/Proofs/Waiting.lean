import CurveSketch.Program.Balance
import CurveSketch.Proofs.Diagnosis
import CurveSketch.Proofs.Reading
import Mathlib.Data.List.Chain

/-!
# CurveSketch.Proofs.Waiting

What the two stacks of the compiler look like between two tokens. All of it is in the path of
grammar rules that the waiting stack is (`Awaits`), which every step keeps (`Reads.step`). An
operator between two operands waits while its left operand is in the output, so the output is as
high as the number of such operators (`Awaits.depth?_output`). A function waits below its
parenthesis, and an operator waits on another one only where that one does not leave for it
(`Awaits.chain`), which puts the operators of each parenthesis into three tiers
(`tiered_of_chain`). The parentheses that wait are those that are left open (`Nested.leftOpens`).
`Orderly` has these facts together, for the state after any tokens that are read without an error
(`steps_orderly`); the end of an expression then takes nothing but operators off the stack.
-/

namespace CurveSketch

/-! ## Operators in tiers -/

namespace Operator

def IsSum (op : Operator) : Prop :=
  op = binary .add ∨ op = binary .sub

def IsProduct (op : Operator) : Prop :=
  op = binary .mul ∨ op = binary .div

def IsTight (op : Operator) : Prop :=
  op = binary .pow ∨ op = neg

instance (op : Operator) : Decidable op.IsSum :=
  inferInstanceAs (Decidable (_ ∨ _))

instance (op : Operator) : Decidable op.IsProduct :=
  inferInstanceAs (Decidable (_ ∨ _))

instance (op : Operator) : Decidable op.IsTight :=
  inferInstanceAs (Decidable (_ ∨ _))

theorem isSum_or_isProduct_or_isTight (op : Operator) :
    op.IsSum ∨ op.IsProduct ∨ op.IsTight := by
  have hall : ∀ op ∈ all, op.IsSum ∨ op.IsProduct ∨ op.IsTight := by decide
  exact hall op (mem_all op)

/-- Listed from the bottom: at most one sum, then at most one product, then powers and signs. -/
def Tiered (ops : List Operator) : Prop :=
  ∃ sums products others, ops = sums ++ products ++ others ∧
    sums.length ≤ 1 ∧ (∀ op ∈ sums, op.IsSum) ∧
    products.length ≤ 1 ∧ (∀ op ∈ products, op.IsProduct) ∧
    ∀ op ∈ others, op.IsTight

end Operator

namespace Compile

open Token

/-- What waits on an operator is no sum, and waits on anything but a sum only if it is tight. -/
theorem tier_of_not_yields {lower upper : Operator} (h : yields lower upper = false) :
    ¬upper.IsSum ∧ (lower.IsSum ∨ upper.IsTight) := by
  have hall : ∀ lower ∈ Operator.all, ∀ upper ∈ Operator.all, yields lower upper = false →
      ¬upper.IsSum ∧ (lower.IsSum ∨ upper.IsTight) := by decide
  exact hall lower lower.mem_all upper upper.mem_all h

theorem tight_of_chain {op : Operator} {ops : List Operator}
    (h : (op :: ops).IsChain fun lower upper => yields lower upper = false) (hop : ¬op.IsSum) :
    ∀ upper ∈ ops, upper.IsTight := by
  induction ops generalizing op with
  | nil => simp
  | cons next rest ih =>
    obtain ⟨hstays, hrest⟩ := List.isChain_cons_cons.mp h
    obtain ⟨hsum, htier⟩ := tier_of_not_yields hstays
    intro upper hupper
    rcases List.mem_cons.mp hupper with rfl | hupper
    · exact htier.resolve_left hop
    · exact ih hrest hsum upper hupper

theorem exists_upper_tiers {ops : List Operator}
    (h : ops.IsChain fun lower upper => yields lower upper = false)
    (hbottom : ∀ op ∈ ops.head?, ¬op.IsSum) :
    ∃ products others, ops = products ++ others ∧
      products.length ≤ 1 ∧ (∀ op ∈ products, op.IsProduct) ∧ ∀ op ∈ others, op.IsTight := by
  cases ops with
  | nil => exact ⟨[], [], by simp⟩
  | cons op rest =>
    have hsum := hbottom op rfl
    have htight := tight_of_chain h hsum
    rcases op.isSum_or_isProduct_or_isTight with hop | hop | hop
    · exact absurd hop hsum
    · exact ⟨[op], rest, rfl, Nat.le_refl 1, by simpa using hop, htight⟩
    · exact ⟨[], op :: rest, rfl, Nat.zero_le 1, by simp, List.forall_mem_cons.mpr ⟨hop, htight⟩⟩

theorem tiered_of_chain {ops : List Operator}
    (h : ops.IsChain fun lower upper => yields lower upper = false) : Operator.Tiered ops := by
  by_cases hbottom : ∀ op ∈ ops.head?, ¬op.IsSum
  · obtain ⟨products, others, rfl, hproducts⟩ := exists_upper_tiers h hbottom
    exact ⟨[], products, others, rfl, Nat.zero_le 1, by simp, hproducts⟩
  · push Not at hbottom
    obtain ⟨op, hop, hsum⟩ := hbottom
    obtain ⟨rest, rfl⟩ := List.head?_eq_some_iff.mp hop
    obtain ⟨hnext, hrest⟩ := List.isChain_cons.mp h
    obtain ⟨products, others, rfl, hproducts⟩ :=
      exists_upper_tiers hrest fun next hmem => (tier_of_not_yields (hnext next hmem)).1
    exact ⟨[op], products, others, rfl, Nat.le_refl 1, by simpa using hsum, hproducts⟩

/-! ## Entries of the stack -/

namespace Pending

def isBinary : Pending → Bool
  | operator (.binary _) => true
  | _ => false

def operator? : Pending → Option Operator
  | operator op => some op
  | _ => none

/-- The first entry can wait directly on the second one: on a function only a parenthesis, and on
an operator only one that it does not leave for. -/
def RestsOn : Pending → Pending → Prop
  | group _, function _ => True
  | _, function _ => False
  | operator upper, operator lower => yields lower upper = false
  | _, _ => True

theorem group_restsOn (position : Nat) (entry : Pending) : RestsOn (group position) entry := by
  cases entry <;> trivial

theorem eq_group_of_restsOn {entry : Pending} {f : Function} (h : RestsOn entry (function f)) :
    ∃ position, entry = group position := by
  cases entry with
  | group position => exact ⟨position, rfl⟩
  | operator op => exact h.elim
  | function g => exact h.elim

end Pending

open Pending

theorem restsOn_of_adjacent {pending : List Pending} {upper lower : Pending}
    (h : pending.IsChain RestsOn) (hpair : [upper, lower] <:+: pending) : RestsOn upper lower := by
  have hboth := List.IsChain.infix h hpair
  exact List.isChain_pair.mp hboth

/-- The end takes these operators off the stack and nothing else, down to the bottom or to a
parenthesis, which it reports. -/
def Drains (pending : List Pending) (output : List Instruction) (ops : List Operator) : Prop :=
  (pending = ops.map .operator ∧ drain pending output = .ok (flush ops output)) ∨
    ∃ position outer, pending = ops.map .operator ++ .group position :: outer ∧
      drain pending output = .error (.unmatchedOpen position)

/-- Without a function on top none leaves at the end, for the others have a parenthesis above them. -/
theorem exists_drains {pending : List Pending} (h : pending.IsChain RestsOn)
    (htop : ∀ f, pending.head? ≠ some (.function f)) (output : List Instruction) :
    ∃ ops, Drains pending output ops := by
  induction pending generalizing output with
  | nil => exact ⟨[], .inl ⟨rfl, rfl⟩⟩
  | cons entry pending ih =>
    obtain ⟨hrests, hchain⟩ := List.isChain_cons.mp h
    cases entry with
    | function f => exact absurd rfl (htop f)
    | group position => exact ⟨[], .inr ⟨position, pending, rfl, rfl⟩⟩
    | operator op =>
      have hbelow : ∀ f, pending.head? ≠ some (.function f) := fun f hf => hrests _ hf
      obtain ⟨ops, ⟨rfl, hdrain⟩ | ⟨position, outer, rfl, hdrain⟩⟩ :=
        ih hchain hbelow (.apply op :: output)
      · exact ⟨op :: ops, .inl ⟨rfl, by rw [flush_cons, ← hdrain]; rfl⟩⟩
      · exact ⟨op :: ops, .inr ⟨position, outer, rfl, hdrain⟩⟩

theorem chain_of_scope {scope : List Pending} (h : scope.IsChain RestsOn)
    (hscope : groups scope = []) :
    (scope.filterMap operator?).IsChain fun upper lower => yields lower upper = false := by
  induction scope with
  | nil => exact .nil
  | cons entry scope ih =>
    obtain ⟨hrests, hchain⟩ := List.isChain_cons.mp h
    cases entry with
    | group position => cases hscope
    | function f => exact ih hchain hscope
    | operator op =>
      refine List.isChain_cons.mpr ⟨?_, ih hchain hscope⟩
      intro lower hlower
      cases scope with
      | nil => cases hlower
      | cons next scope =>
        have hnext := hrests next rfl
        cases next with
        | operator below =>
          cases hlower
          exact hnext
        | function f => cases hnext
        | group position => cases hscope

/-! ## What waits under an operand -/

theorem yields_of_level_le {top op : Operator} (h : op.level ≤ top.operandLevel) :
    yields top op = false := by
  cases op with
  | neg => exact yields_neg top
  | binary op => exact (yields_eq_false_iff top op).mpr h

section Awaits

variable {wanted : Level} {ts : List Token} {pending : List Pending} {output : List Instruction}

theorem Awaits.operator_restsOn (h : Awaits wanted ts pending output) {op : Operator}
    (fits : op.level ≤ wanted) : ∀ entry ∈ pending.head?, RestsOn (.operator op) entry := by
  intro entry hentry
  cases h with
  | start => cases hentry
  | group | call =>
    cases hentry
    trivial
  | neg | binary =>
    cases hentry
    exact yields_of_level_le fits
  | implicit =>
    cases hentry
    exact yields_of_level_le (Level.le_trans fits (by decide))

theorem Awaits.function_restsOn (h : Awaits wanted ts pending output) (f : Function) :
    ∀ entry ∈ pending.head?, RestsOn (.function f) entry := by
  intro entry hentry
  cases h with
  | start => cases hentry
  | group | call | neg | binary | implicit =>
    cases hentry
    trivial

theorem Awaits.chain (h : Awaits wanted ts pending output) : pending.IsChain RestsOn := by
  induction h with
  | start => exact .nil
  | group position outer ih =>
    exact List.isChain_cons.mpr ⟨fun entry _ => group_restsOn position entry, ih⟩
  | call f name position outer ih =>
    exact .cons_cons trivial (List.isChain_cons.mpr ⟨outer.function_restsOn f, ih⟩)
  | neg position outer fits ih => exact List.isChain_cons.mpr ⟨outer.operator_restsOn fits, ih⟩
  | @binary _ _ _ _ _ _ op position outer fits left ih =>
    have hlevel : (Operator.binary op).level ≤ _ := fits
    exact List.isChain_cons.mpr ⟨outer.operator_restsOn hlevel, ih⟩
  | implicit outer fits left ih =>
    have hlevel : (Operator.binary .mul).level ≤ _ := fits
    exact List.isChain_cons.mpr ⟨outer.operator_restsOn hlevel, ih⟩

theorem depth?_operand {n : Nat} (h : Program.depth? output.reverse 0 = some n) (e : Expr) :
    Program.depth? (e.instructions.reverse ++ output).reverse 0 = some (n + 1) := by
  rw [List.reverse_append, List.reverse_reverse, Program.depth?_append, h, Option.bind_some,
    Program.depth?_instructions]

theorem Awaits.depth?_output (h : Awaits wanted ts pending output) :
    Program.depth? output.reverse 0 = some (pending.countP isBinary) := by
  induction h with
  | start => rfl
  | group position outer ih => exact ih
  | call f name position outer ih => exact ih
  | neg position outer fits ih => exact ih
  | @binary _ _ _ _ _ l op position outer fits left ih =>
    rw [List.countP_cons_of_pos rfl]
    exact depth?_operand ih l
  | @implicit _ _ _ _ _ l outer fits left ih =>
    rw [List.countP_cons_of_pos rfl]
    exact depth?_operand ih l

end Awaits

/-! ## What waits between two tokens -/

section Reads

variable {ts : List Token} {s : State}

/-- The output never needs a value that is not there. It leaves one for each operator between two
operands that waits, and one more where no operand is expected. -/
theorem Reads.depth?_output (h : Reads ts s) : Program.depth? s.output.reverse 0 =
    some (s.pending.countP isBinary + if s.expectsOperand then 0 else 1) := by
  cases h with
  | operand h fits opens => exact h.depth?_output
  | name f position h => exact h.depth?_output
  | complete h ends =>
    obtain ⟨outer, operand, fits⟩ := h
    exact depth?_operand outer.depth?_output _

theorem Reads.chain (h : Reads ts s) : s.pending.IsChain RestsOn := by
  cases h with
  | operand h fits opens => exact h.chain
  | name f position h => exact List.isChain_cons.mpr ⟨h.function_restsOn f, h.chain⟩
  | complete h ends =>
    obtain ⟨outer, operand, fits⟩ := h
    exact outer.chain

theorem Reads.getLast?_of_function (h : Reads ts s) {f : Function}
    (hf : s.pending.head? = some (.function f)) :
    ∃ position, ts.getLast? = some ⟨.function f.name, position⟩ := by
  obtain ⟨rest, hrest⟩ := List.head?_eq_some_iff.mp hf
  cases h with
  | operand h fits opens => exact absurd hrest (h.ne_function f rest)
  | name g position h =>
    cases hrest
    exact ⟨position, by simp⟩
  | complete h ends =>
    obtain ⟨outer, operand, fits⟩ := h
    exact absurd hrest (outer.ne_function f rest)

end Reads

theorem tracks_of_steps {ts : List Token} {s : State} (wf : ∀ t ∈ ts, t.WellFormed)
    (hsteps : steps .initial ts = .ok s) : Tracks ts s := by
  rcases Tracks.initial.steps .nil wf with ⟨e, he, -⟩ | ⟨next, hnext, htracks, -⟩
  · rw [hsteps] at he
    cases he
  · rw [hsteps] at hnext
    cases hnext
    exact htracks

/-- What holds of the stacks between two tokens, the innermost entry being on top. -/
structure Orderly (ts : List Token) (s : State) : Prop where
  /-- The output never needs a value that is not there. It leaves one for each operator between two
  operands that waits, and one more where no operand is expected. -/
  height : Program.depth? s.output.reverse 0 =
    some (s.pending.countP isBinary + if s.expectsOperand then 0 else 1)
  /-- Directly above a function there is a parenthesis. -/
  functions : ∀ entry f, [entry, .function f] <:+: s.pending → ∃ position, entry = .group position
  /-- A function with nothing above it is the token just read. -/
  name : ∀ f, s.pending.head? = some (.function f) →
    ∃ position, ts.getLast? = some ⟨.function f.name, position⟩
  /-- The parentheses that wait are those that are left open, in the same order. -/
  parentheses : ∃ places, LeftOpens ts places ∧
    places.map (fun i => ts[i]?.map Token.position) = (groups s.pending).reverse.map some
  /-- An operator does not leave for the one directly above it. -/
  operators : ∀ upper lower, [.operator upper, .operator lower] <:+: s.pending →
    yields lower upper = false
  /-- The operators of one scope, that is without a parenthesis among them, are in tiers. -/
  tiers : ∀ scope, scope <:+: s.pending → groups scope = [] →
    Operator.Tiered (scope.reverse.filterMap operator?)
  /-- If the tokens end here, and not with the name of a function, only operators leave. -/
  drains : missingCall? s.previous none = none → ∃ ops, Drains s.pending s.output ops

/-- The state after any tokens that are read without an error is orderly. -/
theorem steps_orderly {ts front : List Token} (wf : ∀ t ∈ ts, t.WellFormed) (hfront : front <+: ts)
    {s : State} (hsteps : steps .initial front = .ok s) : Orderly front s := by
  have hwf : ∀ t ∈ front, t.WellFormed := fun t ht => wf t (hfront.subset ht)
  have hreads : Reads front s := Reads.initial.steps hwf hsteps
  have htracks := tracks_of_steps hwf hsteps
  have hchain := hreads.chain
  refine ⟨hreads.depth?_output, ?_, fun f hf => hreads.getLast?_of_function hf,
    htracks.nested.leftOpens, ?_, ?_, ?_⟩
  · intro entry f hpair
    exact eq_group_of_restsOn (restsOn_of_adjacent hchain hpair)
  · intro upper lower hpair
    exact restsOn_of_adjacent hchain hpair
  · intro scope hscope hgroups
    have hinside := List.IsChain.infix hchain hscope
    have hstays := chain_of_scope hinside hgroups
    rw [List.filterMap_reverse]
    exact tiered_of_chain (List.isChain_reverse.mpr hstays)
  · intro hcalled
    refine exists_drains hchain (fun f hf => ?_) s.output
    -- a function on top would lack its parenthesis
    obtain ⟨position, hlast⟩ := hreads.getLast?_of_function hf
    rw [htracks.previous, hlast] at hcalled
    cases hcalled

/-- `2+3*sin(-x^2)`: behind the `^` all three tiers wait, in two scopes, and a function with its
parenthesis between them. -/
def nestedPower : List Token :=
  [⟨.number 2, 0⟩, ⟨.operator "+", 1⟩, ⟨.number 3, 2⟩, ⟨.operator "*", 3⟩, ⟨.function "sin", 4⟩,
    ⟨.leftParen, 7⟩, ⟨.operator "-", 8⟩, ⟨.var, 9⟩, ⟨.operator "^", 10⟩, ⟨.number 2, 11⟩,
    ⟨.rightParen, 12⟩]

theorem steps_orderly_nestedPower :
    ∃ s, steps .initial (nestedPower.take 9) = .ok s ∧
      s.pending = [.operator (.binary .pow), .operator .neg, .group 7, .function .sin,
        .operator (.binary .mul), .operator (.binary .add)] ∧
      Orderly (nestedPower.take 9) s := by
  have hwf : ∀ t ∈ nestedPower, t.WellFormed := by decide
  exact ⟨_, rfl, rfl, steps_orderly hwf (List.take_prefix 9 nestedPower) rfl⟩

end Compile
end CurveSketch
