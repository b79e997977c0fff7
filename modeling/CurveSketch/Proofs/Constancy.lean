import CurveSketch.Proofs.Conservation
import CurveSketch.Proofs.Sampling
import CurveSketch.Proofs.StackSafety

/-!
# CurveSketch.Proofs.Constancy

An expression without the variable does not depend on it. The program pushes the variable exactly
if one of its tokens is the variable (`usesVariable_iff`). Only that instruction looks at `x`, so a
program without it runs in the same way at every `x` (`exec_congr`), be it to a value or to a fault.
Its curve is a horizontal line, or there is none (`horizontal_of_sampleAt`).
-/

namespace CurveSketch
namespace Program

/-- Only the instruction that pushes the variable looks at `x`. -/
theorem step_congr {i : Instruction} (h : i.isVariable = false) (m : Elementary) (x y : Float)
    (stack : List Float) : step m x i stack = step m y i stack := by
  cases i with
  | var => cases h
  | const value => rfl
  | apply op => cases op <;> rfl
  | call f => rfl

theorem exec_congr {is : List Instruction} (h : ∀ i ∈ is, i.isVariable = false) (m : Elementary)
    (x y : Float) (stack : List Float) : exec m x is stack = exec m y is stack := by
  induction is generalizing stack with
  | nil => rfl
  | cons i rest ih =>
    simp only [exec, step_congr (h i (by simp)) m x y stack]
    cases step m y i stack with
    | ok next => exact ih (fun j hj => h j (by simp [hj])) next
    | error fault => rfl

theorem evaluateWith_congr {p : Program} (h : p.usesVariable = false) (m : Elementary)
    (x y : Float) : p.evaluateWith m x = p.evaluateWith m y := by
  have hnone : ∀ i ∈ p.instructions, i.isVariable = false := by
    simpa only [usesVariable, List.any_eq_false, Bool.not_eq_true] using h
  rw [evaluateWith, evaluateWith, exec_congr hnone m x y]

theorem usesVariable_iff {ts : List Token} (wf : ∀ t ∈ ts, t.WellFormed) {source : String}
    {p : Program} (h : ofTokens ts source = .ok p) :
    p.usesVariable = true ↔ ∃ t ∈ ts, t.lexeme = .var := by
  obtain ⟨-, -, -, hpushes⟩ := denote_of_ofTokens wf h
  have hvar : p.usesVariable = true ↔ .var ∈ p.instructions.filter Instruction.isPush := by
    rw [usesVariable, List.any_eq_true, List.mem_filter]
    constructor
    · rintro ⟨i, hi, hvariable⟩
      cases i with
      | var => exact ⟨hi, rfl⟩
      | const | apply | call => cases hvariable
    · rintro ⟨hi, -⟩
      exact ⟨_, hi, rfl⟩
  have hpush (t : Token) : t.lexeme.push? = some .var ↔ t.lexeme = .var := by
    cases t.lexeme <;> simp [Lexeme.push?]
  simp only [hvar, hpushes, List.mem_filterMap, hpush]

end Program

/-! ## Curves -/

/-- Nothing is drawn, or all points have the same ordinate. -/
def Polyline.Horizontal (entries : List Sample) : Prop :=
  (∀ entry ∈ entries, entry = none) ∨ ∃ y, ∀ entry ∈ entries, ∃ x, entry = some ⟨x, y⟩

section Constant

variable {p : Program} (h : ∀ x y : Float, p.evaluate x = p.evaluate y)

include h

theorem column_of_constant (w : Window) (height : Float) :
    (∀ i x, column p w height i x = none) ∨
      ∃ y, ∀ i x, column p w height i x = some ⟨Float.ofNat i, y⟩ := by
  unfold column
  cases hrun : p.evaluate 0 with
  | error fault =>
    left
    intro i x
    rw [h x 0, hrun]
  | ok v =>
    cases hrow : (w.pixelY v height).isFinite with
    | false =>
      left
      intro i x
      simp only [h x 0, hrun, hrow, Bool.false_eq_true, if_false]
    | true =>
      right
      refine ⟨w.pixelY v height, ?_⟩
      intro i x
      simp only [h x 0, hrun, hrow, if_true]

theorem horizontal_of_samples {width height : Nat} {w : Window} {workers : Int}
    {entries : List Sample} (hs : samples p width height w workers = .ok entries) :
    Polyline.Horizontal entries := by
  unfold samples at hs
  split at hs
  · cases hs
  · split at hs
    · cases hs
    · simp only at hs
      split at hs
      · rename_i rows _
        cases hs
        simp only [Polyline.Horizontal, Workers.mapWith_eq_map, List.forall_mem_map]
        rcases column_of_constant h w rows with hgaps | ⟨y, hpoints⟩
        · exact .inl fun entry _ => hgaps _ _
        · exact .inr ⟨y, fun entry _ => ⟨_, hpoints _ _⟩⟩
      · split at hs
        · cases hs
        · cases hs
          exact .inl (by simp)

theorem horizontal_of_sampleAt {width height xRange yRange : Value} {workers : Int} {rows : Nat}
    {entries : List Sample}
    (hs : sampleAt p width height xRange yRange workers = .ok (rows, entries)) :
    Polyline.Horizontal entries := by
  unfold sampleAt at hs
  split at hs
  · cases hs
  · split at hs
    · cases hs
    · split at hs
      · cases hs
      · split at hs
        · rename_i hsamples
          cases hs
          exact horizontal_of_samples h hsamples
        · cases hs

end Constant

/-- A compiled program uses the variable exactly if the text has a token for it. If it has none, the
program has the same outcome at any two places, a number or not, and what is sampled is one height
over the whole window or nothing. -/
theorem Program.compile_constant {mode : LexMode} {limit : Int} {text : String} {p : Program}
    (h : compile mode limit text = .ok p) :
    ∃ ts, tokenize mode limit text = .ok ts ∧
      (p.usesVariable = true ↔ ∃ t ∈ ts, t.lexeme = .var) ∧
      ((∀ t ∈ ts, t.lexeme ≠ .var) →
        (∀ x y : Float, p.evaluate x = p.evaluate y) ∧
        (∀ (width height xRange yRange : Value) (workers : Int) (rows : Nat)
          (entries : List Sample),
          sampleAt p width height xRange yRange workers = .ok (rows, entries) →
            Polyline.Horizontal entries) ∧
        ∀ (width height : Nat) (xRange yRange : Value) (w : Window) (workers : Int),
          Window.ofValues xRange yRange = .ok w → 0 < width → width < 2 ^ 53 → 0 < height →
            height < 2 ^ 53 → ∃ entries,
              sampleAt p (.int width) (.int height) xRange yRange workers = .ok (height, entries) ∧
              entries.length = width + 1 ∧ Polyline.Horizontal entries) := by
  rw [compile_eq] at h
  split at h
  · cases h
  · rename_i ts hts
    split at h
    · cases h
    · rename_i hp
      cases h
      have huses := usesVariable_iff (wellFormed_of_tokenize hts) hp
      refine ⟨ts, hts, huses, ?_⟩
      intro hnone
      have hunused : p.usesVariable = false := by
        rw [Bool.eq_false_iff, Ne, huses]
        rintro ⟨t, ht, hvar⟩
        exact hnone t ht hvar
      have hconstant (x y : Float) : p.evaluate x = p.evaluate y :=
        evaluateWith_congr hunused .double x y
      refine ⟨hconstant, ?_, ?_⟩
      · intro width height xRange yRange workers rows entries hs
        exact horizontal_of_sampleAt hconstant hs
      · intro width height xRange yRange w workers hw hwidth hwidth' hheight hheight'
        have hs := sampleAt_eq hwidth hwidth' hheight hheight' hw p workers
        exact ⟨_, hs, length_entriesOf p width height w, horizontal_of_sampleAt hconstant hs⟩

/-- `2-5` is -3 everywhere, also where `x` is no number, and its curve is level. -/
theorem Program.compile_constant_difference :
    ∃ p, compile .strict 256 "2-5" = .ok p ∧ p.usesVariable = false ∧
      (∀ x : Float, p.evaluate x = .ok (-3)) ∧
      ∃ entries, sampleAt p (.int 2) (.int 4) (.list [.int (-1), .int 1])
          (.list [.int (-4), .int 4]) 1 = .ok (4, entries) ∧
        entries.length = 3 ∧ Polyline.Horizontal entries := by
  have hcompiled : compile .strict 256 "2-5" =
      .ok ⟨[.const 2, .const 5, .apply (.binary .sub)], "2-5"⟩ := rfl
  have hw : Window.ofValues (.list [.int (-1), .int 1]) (.list [.int (-4), .int 4]) =
      .ok ⟨⟨-1, 1⟩, ⟨-4, 4⟩⟩ := rfl
  obtain ⟨ts, -, huses, hconstant⟩ := compile_constant hcompiled
  have hnone : ∀ t ∈ ts, t.lexeme ≠ .var := by
    intro t ht hvar
    cases huses.mpr ⟨t, ht, hvar⟩
  obtain ⟨hsame, -, hlevel⟩ := hconstant hnone
  refine ⟨_, hcompiled, rfl, ?_, ?_⟩
  · intro x
    rw [hsame x 0]
    rfl
  · exact hlevel 2 4 _ _ _ 1 hw (by decide) (by decide) (by decide) (by decide)

end CurveSketch
