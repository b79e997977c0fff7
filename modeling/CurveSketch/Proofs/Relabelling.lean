import CurveSketch.Proofs.StackSafety
import CurveSketch.Report
import Mathlib.Data.List.Basic

/-!
# CurveSketch.Proofs.Relabelling

Positions are names of places, which nothing but errors repeat. When the tokens are moved to other
positions, the compiler goes through the same steps (`Compile.steps_relabel`): it returns the same
instructions, or the same error about the place that the token was moved to
(`Compile.instructions_relabel`). Hence an error names the position of one of the tokens. The
scanner in turn moves all its tokens along with the beginning of the text (`Scan.tokens_add`).
-/

namespace CurveSketch

def Token.relabel (f : Nat → Nat) (t : Token) : Token :=
  { t with position := f t.position }

namespace SyntaxError

def relabel (f : Nat → Nat) : SyntaxError → SyntaxError
  | empty => empty
  | missingCall name position => missingCall name (f position)
  | unknownFunction name position => unknownFunction name (f position)
  | missingOperandBeforeClose position => missingOperandBeforeClose (f position)
  | unmatchedClose position => unmatchedClose (f position)
  | missingLeftOperand symbol position => missingLeftOperand symbol (f position)
  | unknownOperator symbol => unknownOperator symbol
  | incomplete => incomplete
  | unmatchedOpen position => unmatchedOpen (f position)
  | malformed fault => malformed fault

@[simp] theorem position?_relabel (f : Nat → Nat) (e : SyntaxError) :
    (e.relabel f).position? = e.position?.map f := by
  cases e <;> rfl

end SyntaxError

/-! ### The compiler -/

namespace Compile

def Pending.relabel (f : Nat → Nat) : Pending → Pending
  | .group position => .group (f position)
  | entry => entry

def State.relabel (f : Nat → Nat) (s : State) : State where
  output := s.output
  pending := s.pending.map (Pending.relabel f)
  expectsOperand := s.expectsOperand
  previous := s.previous.map (Token.relabel f)

theorem State.initial_relabel (f : Nat → Nat) : State.initial.relabel f = State.initial := rfl

theorem State.previous_relabel (f : Nat → Nat) (s : State) :
    (s.relabel f).previous = s.previous.map (Token.relabel f) := rfl

section

variable (f : Nat → Nat)

theorem release_relabel (incoming : Operator) (pending : List Pending)
    (output : List Instruction) :
    release incoming (pending.map (Pending.relabel f)) output =
      ((release incoming pending output).1.map (Pending.relabel f),
        (release incoming pending output).2) := by
  induction pending generalizing output with
  | nil => rfl
  | cons entry rest ih =>
    cases entry with
    | operator top =>
      simp only [List.map_cons, Pending.relabel, release]
      split
      · exact ih _
      · rfl
    | function g => rfl
    | group position => rfl

theorem pushOperator_relabel (incoming : Operator) (s : State) :
    pushOperator incoming (s.relabel f) = (pushOperator incoming s).relabel f := by
  simp only [pushOperator, State.relabel, release_relabel, List.map_cons, Pending.relabel]

theorem closeGroup?_relabel (pending : List Pending) (output : List Instruction) :
    closeGroup? (pending.map (Pending.relabel f)) output =
      (closeGroup? pending output).map fun closed =>
        (closed.1.map (Pending.relabel f), closed.2) := by
  induction pending generalizing output with
  | nil => rfl
  | cons entry rest ih =>
    cases entry with
    | operator op => exact ih _
    | function g => exact ih _
    | group position =>
      cases rest with
      | nil => rfl
      | cons next more => cases next <;> rfl

theorem missingCall?_relabel (previous next : Option Token) :
    missingCall? (previous.map (Token.relabel f)) (next.map (Token.relabel f)) =
      (missingCall? previous next).map (SyntaxError.relabel f) := by
  cases previous with
  | none => rfl
  | some t =>
    obtain ⟨lexeme, position⟩ := t
    cases lexeme with
    | function name =>
      cases next with
      | none => rfl
      | some u =>
        obtain ⟨lexeme, place⟩ := u
        cases lexeme <;> rfl
    | number | var | operator | leftParen | rightParen => rfl

theorem isImplicitProduct_relabel (previous : Option Token) (next : Token) :
    isImplicitProduct (previous.map (Token.relabel f)) (next.relabel f) =
      isImplicitProduct previous next := by
  cases previous <;> rfl

theorem read_relabel (s : State) (t : Token) :
    read (s.relabel f) (t.relabel f) =
      match read s t with
      | .ok next => .ok (next.relabel f)
      | .error e => .error (e.relabel f) := by
  obtain ⟨lexeme, position⟩ := t
  cases lexeme with
  | number value => rfl
  | var => rfl
  | leftParen => rfl
  | function name =>
    simp only [read, Token.relabel]
    split <;> rfl
  | rightParen =>
    simp only [read, Token.relabel, State.relabel, closeGroup?_relabel]
    split
    · rfl
    · cases closeGroup? s.pending s.output <;> rfl
  | operator symbol =>
    simp only [read, Token.relabel, pushOperator_relabel]
    show (if s.expectsOperand then _ else _) = _
    split
    · split <;> rfl
    · split <;> rfl

theorem ready_relabel (s : State) (t : Token) :
    (if isImplicitProduct (s.relabel f).previous (t.relabel f) then
        pushOperator (.binary .mul) (s.relabel f) else s.relabel f) =
      (if isImplicitProduct s.previous t then pushOperator (.binary .mul) s else s).relabel f := by
  rw [State.previous_relabel, isImplicitProduct_relabel, pushOperator_relabel]
  split <;> rfl

theorem step_relabel (s : State) (t : Token) :
    step (s.relabel f) (t.relabel f) =
      match step s t with
      | .ok next => .ok (next.relabel f)
      | .error e => .error (e.relabel f) := by
  have hmissing := missingCall?_relabel f s.previous (some t)
  rw [Option.map_some, ← State.previous_relabel] at hmissing
  unfold step
  rw [hmissing]
  cases missingCall? s.previous (some t) with
  | some e => rfl
  | none =>
    simp only [Option.map_none, ready_relabel, read_relabel]
    cases read (if isImplicitProduct s.previous t then pushOperator (.binary .mul) s else s) t <;>
      rfl

theorem steps_relabel (s : State) (ts : List Token) :
    steps (s.relabel f) (ts.map (Token.relabel f)) =
      match steps s ts with
      | .ok next => .ok (next.relabel f)
      | .error e => .error (e.relabel f) := by
  induction ts generalizing s with
  | nil => rfl
  | cons t rest ih =>
    simp only [List.map_cons, steps, step_relabel]
    cases step s t with
    | ok next => exact ih next
    | error e => rfl

theorem drain_relabel (pending : List Pending) (output : List Instruction) :
    drain (pending.map (Pending.relabel f)) output =
      (drain pending output).mapError (SyntaxError.relabel f) := by
  induction pending generalizing output with
  | nil => rfl
  | cons entry rest ih =>
    cases entry with
    | operator op => exact ih _
    | function g => exact ih _
    | group position => rfl

theorem finish_relabel (s : State) :
    finish (s.relabel f) = (finish s).mapError (SyntaxError.relabel f) := by
  have hmissing := missingCall?_relabel f s.previous none
  rw [Option.map_none] at hmissing
  simp only [finish, State.relabel, hmissing, drain_relabel]
  cases missingCall? s.previous none with
  | some e => rfl
  | none =>
    simp only [Option.map_none]
    split
    · rfl
    · cases drain s.pending s.output <;> rfl

theorem instructions_relabel (ts : List Token) :
    instructions (ts.map (Token.relabel f)) =
      (instructions ts).mapError (SyntaxError.relabel f) := by
  cases ts with
  | nil => rfl
  | cons t rest =>
    have hsteps := steps_relabel f .initial (t :: rest)
    rw [State.initial_relabel, List.map_cons] at hsteps
    simp only [List.map_cons, instructions, hsteps]
    cases steps .initial (t :: rest) with
    | ok s => exact finish_relabel f s
    | error e => rfl

end

/-- An error names the position of a token: it stays where it is when everything else is moved. -/
theorem exists_token_of_position? {ts : List Token} {e : SyntaxError} {i : Nat}
    (h : instructions ts = .error e) (hi : e.position? = some i) : ∃ t ∈ ts, t.position = i := by
  by_contra hnone
  have hne : ∀ t ∈ ts, t.position ≠ i := by
    intro t ht heq
    exact hnone ⟨t, ht, heq⟩
  let f : Nat → Nat := fun position => if position = i then i + 1 else position
  have hsame : ts.map (Token.relabel f) = ts := by
    conv_rhs => rw [← List.map_id ts]
    refine List.map_congr_left ?_
    intro t ht
    simp only [Token.relabel, f, if_neg (hne t ht), id_eq]
  have hrelabel := instructions_relabel f ts
  rw [hsame, h] at hrelabel
  have hfixed := congrArg SyntaxError.position? (Except.error.inj hrelabel)
  rw [SyntaxError.position?_relabel, hi, Option.map_some, Option.some.injEq] at hfixed
  simp only [f, if_pos] at hfixed
  omega

end Compile

theorem Program.ofTokens_relabel (f : Nat → Nat) (ts : List Token) (source : String) :
    ofTokens (ts.map (Token.relabel f)) source =
      (ofTokens ts source).mapError (SyntaxError.relabel f) := by
  simp only [ofTokens, Compile.instructions_relabel]
  cases Compile.instructions ts <;> rfl

theorem Program.exists_token_of_position? {ts : List Token} {source : String} {e : SyntaxError}
    {i : Nat} (h : ofTokens ts source = .error e) (hi : e.position? = some i) :
    ∃ t ∈ ts, t.position = i := by
  simp only [ofTokens] at h
  split at h
  · cases h
  · rename_i hinstructions
    cases h
    exact Compile.exists_token_of_position? hinstructions hi

/-! ### The scanner -/

def LexError.relabel (f : Nat → Nat) : LexError → LexError
  | unexpected char position => unexpected char (f position)
  | e => e

namespace Scan

theorem tokens_add (mode : LexMode) (k p skip : Nat) (cs : List Char) :
    tokens mode (p + k) skip cs =
      match tokens mode p skip cs with
      | .ok ts => .ok (ts.map (Token.relabel (· + k)))
      | .error e => .error (e.relabel (· + k)) := by
  induction cs generalizing p skip with
  | nil => rfl
  | cons c rest ih =>
    cases skip with
    | succ skip => simp only [tokens, Nat.add_right_comm p k 1, ih]
    | zero =>
      simp only [tokens, Nat.add_right_comm p k 1, ih]
      split
      · rfl
      · split
        · cases mode <;> rfl
        · rename_i length _
          cases tokens mode (p + 1) length rest <;> rfl

theorem position_of_tokens {mode : LexMode} {p skip : Nat} {cs : List Char} {ts : List Token}
    (h : tokens mode p skip cs = .ok ts) :
    ∀ t ∈ ts, p ≤ t.position ∧ t.position < p + cs.length := by
  intro t ht
  obtain ⟨i, c, others, hposition, hslice, -⟩ := slice_of_tokens h t ht
  have hinside : i < cs.length := by
    by_contra hbeyond
    rw [sliceAt, List.drop_eq_nil_of_le (by omega), List.take_nil] at hslice
    cases hslice
  omega

theorem unexpected_of_tokens {mode : LexMode} {p skip : Nat} {cs : List Char} {e : LexError}
    (h : tokens mode p skip cs = .error e) :
    ∃ c i, e = .unexpected c (p + i) ∧ cs[i]? = some c := by
  induction cs generalizing p skip with
  | nil => cases h
  | cons c rest ih =>
    have hrest {skip : Nat} (hrest : tokens mode (p + 1) skip rest = .error e) :
        ∃ d i, e = .unexpected d (p + i) ∧ (c :: rest)[i]? = some d := by
      obtain ⟨d, i, rfl, hd⟩ := ih hrest
      exact ⟨d, i + 1, by rw [Nat.add_assoc, Nat.add_comm 1 i], hd⟩
    cases skip with
    | succ skip => exact hrest h
    | zero =>
      simp only [tokens] at h
      split at h
      · exact hrest h
      · split at h
        · split at h
          · cases h
            exact ⟨c, 0, rfl, rfl⟩
          · exact hrest h
        · split at h
          · rename_i hfailed
            cases h
            exact hrest hfailed
          · cases h

end Scan
end CurveSketch
