import CurveSketch.Proofs.Compilation
import Mathlib.Data.List.Chain

/-!
# CurveSketch.Proofs.Products

A product that is understood between two operands is a `*` left out. `Token.withProducts` writes
all of them out, and none is left to be understood afterwards. After a complete operand the sign of
a product and the operand behind it take the compiler to the state that the operand alone takes it
to (`step_times`), so both lists of tokens are read to the same state or refused with the same error
(`steps_withProducts`), whether they are expressions or not.
-/

namespace CurveSketch
namespace Token

/-- The first of two neighbours ends an operand, and the second opens another one. -/
def Adjoins (t u : Token) : Prop :=
  t.lexeme.endsOperand = true ∧ u.lexeme.startsOperand = true

instance (t u : Token) : Decidable (Adjoins t u) :=
  inferInstanceAs (Decidable (_ ∧ _))

def times (position : Nat) : Token :=
  ⟨.operator BinaryOp.mul.symbol, position⟩

/-- The tokens with the sign of a product between any two operands that stand next to each other.
`place` says at which position a sign is written, by the tokens that follow it. -/
def withProducts (place : List Token → Nat) : List Token → List Token
  | t :: u :: rest =>
    if Adjoins t u then t :: times (place (u :: rest)) :: withProducts place (u :: rest)
    else t :: withProducts place (u :: rest)
  | ts => ts

theorem withProducts_cons (place : List Token → Nat) (t : Token) (rest : List Token) :
    ∃ tail, withProducts place (t :: rest) = t :: tail := by
  cases rest with
  | nil => exact ⟨[], rfl⟩
  | cons u rest =>
    unfold withProducts
    split
    · exact ⟨_, rfl⟩
    · exact ⟨_, rfl⟩

theorem not_adjoins_times (t u : Token) (position : Nat) :
    ¬ Adjoins t (times position) ∧ ¬ Adjoins (times position) u := by
  refine ⟨?_, ?_⟩
  · rintro ⟨-, h⟩
    cases h
  · rintro ⟨h, -⟩
    cases h

theorem isChain_withProducts (place : List Token → Nat) (ts : List Token) :
    (withProducts place ts).IsChain fun t u => ¬ Adjoins t u := by
  induction ts with
  | nil => exact .nil
  | cons t rest ih =>
    cases rest with
    | nil => exact .singleton t
    | cons u rest =>
      obtain ⟨tail, htail⟩ := withProducts_cons place u rest
      rw [htail] at ih
      rw [withProducts, htail]
      split
      · exact .cons_cons (not_adjoins_times t u _).1 (.cons_cons (not_adjoins_times t u _).2 ih)
      · rename_i hnot
        exact .cons_cons hnot ih

end Token

namespace Compile

open Token

theorem expectsOperand_of_read {s next : State} {t : Token} (h : read s t = .ok next)
    (ht : t.lexeme.endsOperand = true) : next.expectsOperand = false := by
  obtain ⟨lexeme, position⟩ := t
  cases lexeme with
  | number value =>
    cases h
    rfl
  | var =>
    cases h
    rfl
  | rightParen =>
    simp only [read] at h
    split at h
    · cases h
    · split at h
      · cases h
        rfl
      · cases h
  | function | operator | leftParen => cases ht

theorem step_eq_ok {s next : State} {t : Token} (h : step s t = .ok next) :
    next.previous = some t ∧ (t.lexeme.endsOperand = true → next.expectsOperand = false) := by
  unfold step at h
  split at h
  · cases h
  · simp only at h
    split at h
    · rename_i hread
      have hexpects := expectsOperand_of_read hread
      cases h
      exact ⟨rfl, hexpects⟩
    · cases h

/-- After a complete operand, the sign of a product is read, and the next operand is then read as it
would be without the sign. -/
theorem step_times {s : State} {t u : Token} (hs : s.previous = some t)
    (hexpects : s.expectsOperand = false) (h : Adjoins t u) (position : Nat) :
    ∃ mid, step s (times position) = .ok mid ∧ step mid u = step s u := by
  refine ⟨{ pushOperator (.binary .mul) s with previous := some (times position) }, ?_, ?_⟩
  · rw [step_of_complete hs h.1 rfl]
    simp only [times, read, hexpects, Bool.false_eq_true, if_false, ofSymbol?_binary, noted]
  · rw [step_of_opens (s := { pushOperator (.binary .mul) s with
      previous := some (times position) }) trivial, step_of_adjacent hs h.1 h.2]
    exact noted_read h.2 (pushOperator (.binary .mul) s) (some (times position))

theorem steps_withProducts (place : List Token → Nat) (s : State) (ts : List Token) :
    steps s (withProducts place ts) = steps s ts := by
  induction ts generalizing s with
  | nil => rfl
  | cons t rest ih =>
    cases rest with
    | nil => rfl
    | cons u rest =>
      cases hstep : step s t with
      | error e =>
        obtain ⟨tail, htail⟩ := withProducts_cons place t (u :: rest)
        simp only [htail, steps, hstep]
      | ok next =>
        obtain ⟨hprevious, hexpects⟩ := step_eq_ok hstep
        rw [withProducts, steps_cons hstep]
        split
        · rename_i hadjoins
          obtain ⟨mid, hmid, hsame⟩ :=
            step_times hprevious (hexpects hadjoins.1) hadjoins (place (u :: rest))
          rw [steps_cons hstep, steps_cons hmid, ih mid]
          simp only [steps, hsame]
        · rw [steps_cons hstep, ih next]

end Compile

/-- A product between two operands may be written or understood: the tokens are compiled to the same
program or refused with the same error. With the products written out, none is understood. -/
theorem Program.ofTokens_withProducts (place : List Token → Nat) (ts : List Token)
    (source : String) :
    ofTokens (Token.withProducts place ts) source = ofTokens ts source ∧
      (Token.withProducts place ts).IsChain fun t u => ¬ Token.Adjoins t u := by
  refine ⟨?_, Token.isChain_withProducts place ts⟩
  cases ts with
  | nil => rfl
  | cons t rest =>
    obtain ⟨tail, htail⟩ := Token.withProducts_cons place t rest
    have hsteps := Compile.steps_withProducts place .initial (t :: rest)
    rw [htail] at hsteps ⊢
    simp only [ofTokens, Compile.instructions, hsteps]

end CurveSketch
