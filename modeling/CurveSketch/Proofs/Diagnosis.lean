import CurveSketch.Proofs.Parentheses
import CurveSketch.Proofs.Precedence

/-!
# CurveSketch.Proofs.Diagnosis

Which error a list of tokens has, told from the tokens alone. A token is judged by the token in
front of it and by how many parentheses are open there (`Token.violation?`); the first token that
is judged faulty gives the error. Where none is, the end of the list may lack something
(`Token.Diagnosed`). The compiler keeps a flag and a stack instead, but between two tokens these
say no more than the token just read and the parentheses still open (`Tracks`); every step keeps
this or stops with the fault of its token (`Tracks.step`), and so the compiler reports exactly the
diagnosis (`ofTokens_iff_diagnosed`).
-/

namespace CurveSketch

/-- An operand is expected after an operator, an open parenthesis or the name of a function. -/
def Lexeme.precedesOperand : Lexeme → Bool
  | operator _ => true
  | leftParen => true
  | function _ => true
  | _ => false

namespace Token

/-! ## The diagnosis -/

/-- After these tokens an operand is expected; so it is at the start. -/
def expectsOperand (front : List Token) : Bool :=
  match front.getLast? with
  | none => true
  | some t => t.lexeme.precedesOperand

/-- The last token names a function, and no parenthesis follows it. -/
def uncalled? (front : List Token) (next : Option Token) : Option SyntaxError :=
  match front.getLast? with
  | some ⟨.function name, position⟩ =>
    if next.any isOpen then none else some (.missingCall name position)
  | _ => none

def unknownName? (t : Token) : Option SyntaxError :=
  match t.lexeme with
  | .function name =>
    if (Function.all.map Function.name).contains name then none
    else some (.unknownFunction name t.position)
  | _ => none

/-- A parenthesis is closed where an operand is expected. -/
def emptyClose? (front : List Token) (t : Token) : Option SyntaxError :=
  if t.isClose && expectsOperand front then some (.missingOperandBeforeClose t.position) else none

/-- A parenthesis is closed although as many have been closed as opened. -/
def surplusClose? (front : List Token) (t : Token) : Option SyntaxError :=
  if t.isClose && closes front == opens front then some (.unmatchedClose t.position) else none

/-- An operator other than the sign stands where an operand is expected. -/
def bareOperator? (front : List Token) (t : Token) : Option SyntaxError :=
  match t.lexeme with
  | .operator symbol =>
    if symbol != BinaryOp.sub.symbol && expectsOperand front then
      some (.missingLeftOperand symbol t.position)
    else none
  | _ => none

/-- The fault of a token after these tokens, the first of the five that it has. -/
def violation? (front : List Token) (t : Token) : Option SyntaxError :=
  (uncalled? front (some t)).or <|
    (unknownName? t).or <|
      (emptyClose? front t).or <|
        (surplusClose? front t).or <|
          bareOperator? front t

def violationAt? (ts : List Token) (i : Nat) : Option SyntaxError :=
  ts[i]?.bind (violation? (ts.take i))

def Clean (ts : List Token) : Prop :=
  ∀ i, violationAt? ts i = none

/-- The error of a list of tokens, `none` if it is sound: the fault of the first token that has
one, or what is missing at the end. -/
inductive Diagnosed (ts : List Token) : Option SyntaxError → Prop where
  | violation {e : SyntaxError} (i : Nat) (h : violationAt? ts i = some e)
      (first : ∀ j < i, violationAt? ts j = none) : Diagnosed ts (some e)
  | empty (h : ts = []) : Diagnosed ts (some .empty)
  | uncalled {e : SyntaxError} (clean : Clean ts) (h : uncalled? ts none = some e) :
      Diagnosed ts (some e)
  | incomplete (clean : Clean ts) (nonempty : ts ≠ []) (called : uncalled? ts none = none)
      (h : expectsOperand ts = true) : Diagnosed ts (some .incomplete)
  | leftOpen (clean : Clean ts) (h : expectsOperand ts = false) (i : Nat) (t : Token)
      (ht : ts[i]? = some t) (isLeftOpen : LeftOpen ts i) (last : ∀ k, LeftOpen ts k → k ≤ i) :
      Diagnosed ts (some (.unmatchedOpen t.position))
  | sound (clean : Clean ts) (h : expectsOperand ts = false) (closed : ∀ i, ¬ LeftOpen ts i) :
      Diagnosed ts none

/-! ## The diagnosis of a front and of one more token -/

theorem expectsOperand_concat (front : List Token) (t : Token) :
    expectsOperand (front ++ [t]) = t.lexeme.precedesOperand := by
  simp [expectsOperand]

theorem violationAt?_of_lt {front : List Token} {i : Nat} (h : i < front.length)
    (us : List Token) : violationAt? (front ++ us) i = violationAt? front i := by
  rw [violationAt?, violationAt?, List.getElem?_append_left h,
    List.take_append_of_le_length (Nat.le_of_lt h)]

theorem violationAt?_length (front : List Token) (t : Token) (us : List Token) :
    violationAt? (front ++ t :: us) front.length = violation? front t := by
  simp [violationAt?]

theorem violationAt?_of_length_le {ts : List Token} {i : Nat} (h : ts.length ≤ i) :
    violationAt? ts i = none := by
  simp [violationAt?, List.getElem?_eq_none h]

theorem Clean.nil : Clean [] :=
  fun i => violationAt?_of_length_le (Nat.zero_le i)

theorem Clean.concat {front : List Token} {t : Token} (h : Clean front)
    (ht : violation? front t = none) : Clean (front ++ [t]) := by
  intro i
  rcases Nat.lt_trichotomy i front.length with hi | rfl | hi
  · rw [violationAt?_of_lt hi]
    exact h i
  · rw [violationAt?_length, ht]
  · refine violationAt?_of_length_le ?_
    rw [List.length_append, List.length_singleton]
    exact hi

/-- The fault of a token after a front without faults is the first one of the whole list. -/
theorem Clean.diagnosed {front : List Token} {t : Token} {e : SyntaxError} (h : Clean front)
    (ht : violation? front t = some e) (us : List Token) :
    Diagnosed (front ++ t :: us) (some e) := by
  refine .violation front.length ?_ ?_
  · rw [violationAt?_length, ht]
  · intro j hj
    rw [violationAt?_of_lt hj]
    exact h j

end Token

namespace Compile

open Token

/-! ## The stack and the parentheses that are open -/

/-- The positions of the parentheses that wait, the innermost one first. -/
def groups : List Pending → List Nat
  | [] => []
  | .operator _ :: rest => groups rest
  | .function _ :: rest => groups rest
  | .group position :: rest => position :: groups rest

theorem groups_release (op : Operator) (pending : List Pending) (output : List Instruction) :
    groups (release op pending output).1 = groups pending := by
  induction pending generalizing output with
  | nil => rfl
  | cons entry rest ih =>
    cases entry with
    | operator top =>
      simp only [release]
      split
      · exact ih _
      · rfl
    | function f => rfl
    | group position => rfl

theorem groups_pushOperator (op : Operator) (s : State) :
    groups (pushOperator op s).pending = groups s.pending :=
  groups_release op s.pending s.output

theorem closeGroup?_eq_none {pending : List Pending} (h : groups pending = [])
    (output : List Instruction) : closeGroup? pending output = none := by
  induction pending generalizing output with
  | nil => rfl
  | cons entry rest ih =>
    cases entry with
    | operator op => exact ih h _
    | function f => exact ih h _
    | group position => cases h

theorem closeGroup?_eq_some {pending : List Pending} {position : Nat} {outer : List Nat}
    (h : groups pending = position :: outer) (output : List Instruction) :
    ∃ rest out, closeGroup? pending output = some (rest, out) ∧ groups rest = outer := by
  induction pending generalizing output with
  | nil => cases h
  | cons entry rest ih =>
    cases entry with
    | operator op => exact ih h _
    | function f => exact ih h _
    | group position =>
      cases h
      -- a function in front of the parenthesis goes with it
      match rest with
      | [] => exact ⟨[], output, rfl, rfl⟩
      | .operator op :: rest => exact ⟨.operator op :: rest, output, rfl, rfl⟩
      | .function f :: rest => exact ⟨rest, .call f :: output, rfl, rfl⟩
      | .group inner :: rest => exact ⟨.group inner :: rest, output, rfl, rfl⟩

theorem drain_eq_ok {pending : List Pending} (h : groups pending = [])
    (output : List Instruction) : ∃ out, drain pending output = .ok out := by
  induction pending generalizing output with
  | nil => exact ⟨output, rfl⟩
  | cons entry rest ih =>
    cases entry with
    | operator op => exact ih h _
    | function f => exact ih h _
    | group position => cases h

theorem drain_eq_error {pending : List Pending} {position : Nat} {outer : List Nat}
    (h : groups pending = position :: outer) (output : List Instruction) :
    drain pending output = .error (.unmatchedOpen position) := by
  induction pending generalizing output with
  | nil => cases h
  | cons entry rest ih =>
    cases entry with
    | operator op => exact ih h _
    | function f => exact ih h _
    | group position =>
      cases h
      rfl

/-! ## What a state says about the tokens -/

/-- The state between two tokens knows the last one, whether an operand is expected, and which
parentheses are open. -/
structure Tracks (ts : List Token) (s : State) : Prop where
  previous : s.previous = ts.getLast?
  expects : s.expectsOperand = expectsOperand ts
  nested : Nested ts (groups s.pending)

theorem Tracks.initial : Tracks [] .initial :=
  ⟨rfl, rfl, .balanced .nil⟩

theorem missingCall?_eq (front : List Token) (next : Option Token) :
    missingCall? front.getLast? next = uncalled? front next := by
  unfold missingCall? uncalled?
  cases front.getLast? with
  | none => rfl
  | some last =>
    obtain ⟨lexeme, position⟩ := last
    cases lexeme with
    | function name =>
      match next with
      | none => rfl
      | some ⟨lexeme, place⟩ => cases lexeme <;> rfl
    | _ => rfl

/-- The state in which a token is read: after the product understood before it, if any. -/
def prepared (s : State) (t : Token) : State :=
  if isImplicitProduct s.previous t then pushOperator (.binary .mul) s else s

theorem step_eq (s : State) (t : Token) :
    step s t =
      match missingCall? s.previous (some t) with
      | some e => .error e
      | none => noted t (read (prepared s t) t) := rfl

theorem groups_prepared (s : State) (t : Token) :
    groups (prepared s t).pending = groups s.pending := by
  unfold prepared
  split
  · exact groups_pushOperator _ s
  · rfl

theorem prepared_of_not_starts {t : Token} (h : t.lexeme.startsOperand = false) (s : State) :
    prepared s t = s := by
  simp only [prepared, isImplicitProduct, h, Bool.and_false]
  cases s.previous <;> rfl

theorem Tracks.prepared_expects {front : List Token} {s : State} {t : Token} (h : Tracks front s)
    (ht : t.lexeme.startsOperand = true) : (prepared s t).expectsOperand = true := by
  unfold prepared
  split
  · rfl
  · rename_i hproduct
    rw [h.expects, expectsOperand]
    rw [h.previous] at hproduct
    cases hlast : front.getLast? with
    | none => rfl
    | some last =>
      obtain ⟨lexeme, position⟩ := last
      simp only [hlast, isImplicitProduct, ht, Bool.and_true] at hproduct
      cases lexeme with
      | operator symbol => rfl
      | leftParen => rfl
      | function name => rfl
      | number | var | rightParen => exact absurd rfl hproduct

/-- A token that has this fault is answered with it; one without any leads to a state that tracks
the tokens with it. -/
def Answers (front : List Token) (t : Token) (fault : Option SyntaxError)
    (result : Except SyntaxError State) : Prop :=
  match fault with
  | some e => result = .error e
  | none => ∃ next, result = .ok next ∧ Tracks (front ++ [t]) next

section Step

variable {front : List Token} {s : State}

theorem Answers.noted {t : Token} (expects : s.expectsOperand = t.lexeme.precedesOperand)
    (nested : Nested (front ++ [t]) (groups s.pending)) :
    Answers front t none (Compile.noted t (.ok s)) :=
  ⟨_, rfl, by simp, expects.trans (expectsOperand_concat front t).symm, nested⟩

theorem isSome_ofName? (name : String) :
    (Function.ofName? name).isSome = (Function.all.map Function.name).contains name := by
  rw [Function.ofName?, Bool.eq_iff_iff, List.find?_isSome, List.contains_iff_mem, List.mem_map]
  simp only [beq_iff_eq]

theorem Tracks.read_function (h : Tracks front s) (name : String) (position : Nat) :
    Answers front ⟨.function name, position⟩ (unknownName? ⟨.function name, position⟩)
      (Compile.noted ⟨.function name, position⟩
        (read (prepared s ⟨.function name, position⟩) ⟨.function name, position⟩)) := by
  have hname := isSome_ofName? name
  simp only [unknownName?, read, ← hname]
  cases Function.ofName? name with
  | none => rfl
  | some f =>
    refine Answers.noted (h.prepared_expects rfl) ?_
    simp only [groups, groups_prepared]
    exact h.nested.append (.plain rfl rfl)

theorem Tracks.read_rightParen (h : Tracks front s) (position : Nat) :
    Answers front ⟨.rightParen, position⟩
      ((emptyClose? front ⟨.rightParen, position⟩).or (surplusClose? front ⟨.rightParen, position⟩))
      (Compile.noted ⟨.rightParen, position⟩ (read s ⟨.rightParen, position⟩)) := by
  have hcount := h.nested.opens_eq
  simp only [emptyClose?, surplusClose?, isClose, Bool.true_and, read, h.expects]
  cases expectsOperand front with
  | true => rfl
  | false =>
    simp only [Bool.false_eq_true, if_false, Option.none_or]
    cases hgroups : groups s.pending with
    | nil =>
      have heq : closes front = opens front := by simp [hcount, hgroups]
      simp only [heq, BEq.rfl, if_true, closeGroup?_eq_none hgroups]
      rfl
    | cons inner outer =>
      have hne : (closes front == opens front) = false := by simp [hcount, hgroups]
      obtain ⟨rest, out, hclose, houter⟩ := closeGroup?_eq_some hgroups s.output
      have hnested := h.nested
      rw [hgroups] at hnested
      simp only [hne, Bool.false_eq_true, if_false, hclose]
      refine Answers.noted rfl ?_
      simp only [houter]
      exact hnested.closing rfl

/-- An operator is the sign where an operand is expected, and needs a left operand otherwise. -/
theorem Tracks.read_operator (h : Tracks front s) {symbol : String}
    (wf : Lexeme.WellFormed (.operator symbol)) (position : Nat) :
    Answers front ⟨.operator symbol, position⟩ (bareOperator? front ⟨.operator symbol, position⟩)
      (Compile.noted ⟨.operator symbol, position⟩ (read s ⟨.operator symbol, position⟩)) := by
  have hpush : ∀ op, Answers front ⟨.operator symbol, position⟩ none
      (Compile.noted ⟨.operator symbol, position⟩ (.ok (pushOperator op s))) := by
    intro op
    refine Answers.noted rfl ?_
    rw [groups_pushOperator]
    exact h.nested.append (.plain rfl rfl)
  obtain ⟨op, hop⟩ := Lexeme.WellFormed.symbol wf
  have hsymbol : Operator.ofSymbol? symbol = some (.binary op) := by
    rw [hop]
    exact Operator.ofSymbol?_symbol (.binary op)
  simp only [bareOperator?, read, h.expects, hsymbol, bne]
  cases expectsOperand front with
  | false =>
    rw [Bool.and_false]
    exact hpush (.binary op)
  | true =>
    cases symbol == BinaryOp.sub.symbol with
    | true => exact hpush .neg
    | false => rfl

theorem Tracks.step (h : Tracks front s) {t : Token} (wf : t.WellFormed) :
    Answers front t (violation? front t) (Compile.step s t) := by
  obtain ⟨lexeme, position⟩ := t
  rw [step_eq, h.previous, missingCall?_eq, violation?]
  cases uncalled? front (some ⟨lexeme, position⟩) with
  | some e => rfl
  | none =>
    rw [Option.none_or]
    cases lexeme with
    | number value =>
      refine Answers.noted rfl ?_
      rw [groups_prepared]
      exact h.nested.append (.plain rfl rfl)
    | var =>
      refine Answers.noted rfl ?_
      rw [groups_prepared]
      exact h.nested.append (.plain rfl rfl)
    | function name =>
      simp only [emptyClose?, surplusClose?, bareOperator?, isClose, Bool.false_and,
        Bool.false_eq_true, if_false, Option.or_none]
      exact h.read_function name position
    | leftParen =>
      refine Answers.noted rfl ?_
      simp only [groups, groups_prepared]
      exact h.nested.opening rfl
    | rightParen =>
      simp only [prepared_of_not_starts (t := ⟨.rightParen, position⟩) rfl, unknownName?,
        bareOperator?, Option.or_none, Option.none_or]
      exact h.read_rightParen position
    | operator symbol =>
      simp only [prepared_of_not_starts (t := ⟨.operator symbol, position⟩) rfl, unknownName?,
        emptyClose?, surplusClose?, isClose, Bool.false_and, Bool.false_eq_true, if_false,
        Option.none_or]
      exact h.read_operator wf position

end Step

/-- A run stops with the first fault of its tokens, or there is none and its state tracks them. -/
theorem Tracks.steps {front us : List Token} {s : State} (h : Tracks front s)
    (clean : Clean front) (wf : ∀ t ∈ us, t.WellFormed) :
    (∃ e, Compile.steps s us = .error e ∧ Diagnosed (front ++ us) (some e)) ∨
      ∃ next, Compile.steps s us = .ok next ∧ Tracks (front ++ us) next ∧ Clean (front ++ us) := by
  induction us generalizing front s with
  | nil =>
    right
    rw [List.append_nil]
    exact ⟨s, rfl, h, clean⟩
  | cons t us ih =>
    have hstep := h.step (wf t (by simp))
    cases ht : violation? front t with
    | some e =>
      rw [ht] at hstep
      have hfail : Compile.step s t = .error e := hstep
      left
      refine ⟨e, ?_, clean.diagnosed ht us⟩
      simp only [Compile.steps, hfail]
    | none =>
      rw [ht] at hstep
      obtain ⟨next, hnext, htracks⟩ := hstep
      have hrest := ih htracks (clean.concat ht) (fun u hu => wf u (by simp [hu]))
      rw [List.append_assoc, List.singleton_append] at hrest
      simpa only [Compile.steps, hnext] using hrest

theorem Tracks.finish {ts : List Token} {s : State} (h : Tracks ts s) (clean : Clean ts)
    (nonempty : ts ≠ []) :
    (∃ e, Compile.finish s = .error e ∧ Diagnosed ts (some e)) ∨
      (∃ is, Compile.finish s = .ok is) ∧ Diagnosed ts none := by
  simp only [Compile.finish, h.previous, missingCall?_eq, h.expects]
  cases hcall : uncalled? ts none with
  | some e => exact .inl ⟨e, rfl, .uncalled clean hcall⟩
  | none =>
    cases hexpects : expectsOperand ts with
    | true => exact .inl ⟨_, rfl, .incomplete clean nonempty hcall hexpects⟩
    | false =>
      have hnested := h.nested
      simp only [Bool.false_eq_true, if_false]
      cases hgroups : groups s.pending with
      | nil =>
        right
        rw [hgroups] at hnested
        obtain ⟨out, hout⟩ := drain_eq_ok hgroups s.output
        refine ⟨⟨out.reverse, by rw [hout]⟩, .sound clean hexpects ?_⟩
        cases hnested with
        | balanced hbalanced => exact hbalanced.not_leftOpen
      | cons position outer =>
        left
        rw [hgroups] at hnested
        obtain ⟨i, t, hi, rfl, hopen, hlast⟩ := hnested.last_leftOpen
        refine ⟨_, by rw [drain_eq_error hgroups], .leftOpen clean hexpects i t hi hopen hlast⟩

theorem diagnosed_of_instructions {ts : List Token} (wf : ∀ t ∈ ts, t.WellFormed) :
    (∃ e, instructions ts = .error e ∧ Diagnosed ts (some e)) ∨
      (∃ is, instructions ts = .ok is) ∧ Diagnosed ts none := by
  cases ts with
  | nil => exact .inl ⟨_, rfl, .empty rfl⟩
  | cons t rest =>
    simp only [instructions]
    rcases Tracks.initial.steps .nil wf with ⟨e, he, hdiagnosed⟩ | ⟨s, hs, htracks, hclean⟩
    · rw [he]
      exact .inl ⟨e, rfl, hdiagnosed⟩
    · rw [hs]
      exact htracks.finish hclean (by simp)

end Compile

namespace Token

theorem expectsOperand_of_uncalled? {ts : List Token} {e : SyntaxError}
    (h : uncalled? ts none = some e) : expectsOperand ts = true := by
  unfold uncalled? at h
  unfold expectsOperand
  split at h
  · rename_i hlast
    rw [hlast]
    rfl
  · cases h

theorem Diagnosed.unique {ts : List Token} {d d' : Option SyntaxError} (h : Diagnosed ts d)
    (h' : Diagnosed ts d') : d = d' := by
  have hnil : ∀ i, violationAt? [] i = none := Clean.nil
  cases h with
  | violation i hi first =>
    cases h' with
    | violation j hj first' =>
      rcases Nat.lt_trichotomy i j with hij | rfl | hij
      · rw [first' i hij] at hi
        cases hi
      · exact hi.symm.trans hj
      · rw [first j hij] at hj
        cases hj
    | empty h => simp [h, hnil] at hi
    | uncalled clean | incomplete clean | leftOpen clean | sound clean =>
      rw [clean i] at hi
      cases hi
  | empty h =>
    subst h
    cases h' with
    | violation i hi => rw [hnil i] at hi; cases hi
    | empty => rfl
    | uncalled clean h => cases h
    | incomplete clean nonempty => exact absurd rfl nonempty
    | leftOpen clean h | sound clean h => cases h
  | uncalled clean h =>
    have hexpects := expectsOperand_of_uncalled? h
    cases h' with
    | violation i hi => rw [clean i] at hi; cases hi
    | empty hempty => subst hempty; cases h
    | uncalled clean' h' => exact h.symm.trans h'
    | incomplete clean' nonempty called => rw [called] at h; cases h
    | leftOpen clean' h' | sound clean' h' => rw [hexpects] at h'; cases h'
  | incomplete clean nonempty called h =>
    cases h' with
    | violation i hi => rw [clean i] at hi; cases hi
    | empty hempty => exact absurd hempty nonempty
    | uncalled clean' h' => rw [called] at h'; cases h'
    | incomplete => rfl
    | leftOpen clean' h' | sound clean' h' => rw [h] at h'; cases h'
  | leftOpen clean h i t ht isLeftOpen last =>
    cases h' with
    | violation j hj => rw [clean j] at hj; cases hj
    | empty hempty => subst hempty; cases h
    | uncalled clean' h' => rw [expectsOperand_of_uncalled? h'] at h; cases h
    | incomplete clean' nonempty called h' => rw [h] at h'; cases h'
    | leftOpen clean' h' j u hu isLeftOpen' last' =>
      obtain rfl := Nat.le_antisymm (last' i isLeftOpen) (last j isLeftOpen')
      cases ht.symm.trans hu
      rfl
    | sound clean' h' closed => exact absurd isLeftOpen (closed i)
  | sound clean h closed =>
    cases h' with
    | violation j hj => rw [clean j] at hj; cases hj
    | empty hempty => subst hempty; cases h
    | uncalled clean' h' => rw [expectsOperand_of_uncalled? h'] at h; cases h
    | incomplete clean' nonempty called h' => rw [h] at h'; cases h'
    | leftOpen clean' h' i t ht isLeftOpen => exact absurd isLeftOpen (closed i)
    | sound => rfl

end Token

namespace Program

open Token

/-- The compiler reports exactly the diagnosis of the tokens, and accepts those that are sound. -/
theorem ofTokens_iff_diagnosed (ts : List Token) (wf : ∀ t ∈ ts, t.WellFormed)
    (source : String) :
    (∀ e, ofTokens ts source = .error e ↔ Diagnosed ts (some e)) ∧
      ((∃ p, ofTokens ts source = .ok p) ↔ Diagnosed ts none) := by
  simp only [ofTokens]
  rcases Compile.diagnosed_of_instructions wf with ⟨e, he, hdiagnosed⟩ | ⟨⟨is, his⟩, hdiagnosed⟩
  · rw [he]
    refine ⟨fun e' => ⟨?_, ?_⟩, ⟨?_, ?_⟩⟩
    · rintro h
      cases h
      exact hdiagnosed
    · intro h
      cases hdiagnosed.unique h
      rfl
    · rintro ⟨p, hp⟩
      cases hp
    · intro h
      cases hdiagnosed.unique h
  · rw [his]
    refine ⟨fun e' => ⟨?_, ?_⟩, ⟨?_, ?_⟩⟩
    · intro h
      cases h
    · intro h
      cases hdiagnosed.unique h
    · intro h
      exact hdiagnosed
    · intro h
      exact ⟨_, rfl⟩

/-- `2*(x-(1)`: the parenthesis at 7 is closed, so the one at 4 is reported. -/
def unclosed : List Token :=
  [⟨.number 2, 2⟩, ⟨.operator "*", 3⟩, ⟨.leftParen, 4⟩, ⟨.var, 5⟩, ⟨.operator "-", 6⟩,
    ⟨.leftParen, 7⟩, ⟨.number 1, 8⟩, ⟨.rightParen, 9⟩]

theorem ofTokens_unclosed :
    (∀ t ∈ unclosed, t.WellFormed) ∧
    ofTokens unclosed "2*(x-(1)" = .error (.unmatchedOpen 4) ∧
    Diagnosed unclosed (some (.unmatchedOpen 4)) := by
  have hwf : ∀ t ∈ unclosed, t.WellFormed := by decide
  have herror : ofTokens unclosed "2*(x-(1)" = .error (.unmatchedOpen 4) := rfl
  exact ⟨hwf, herror, ((ofTokens_iff_diagnosed unclosed hwf "2*(x-(1)").1 _).mp herror⟩

end Program
end CurveSketch
