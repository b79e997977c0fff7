import CurveSketch.Value.Plain
import Mathlib.Data.List.Basic

/-!
# CurveSketch.Proofs.Writing

Which values have a plain text. A value has one if all that stands in it, the value itself among
it, is within reach and no whole number there has too many digits (`Value.Fits`,
`Value.exists_plain_iff`).
-/

namespace CurveSketch

theorem exists_mapM_iff {α β ε : Type} {f : α → Except ε β} {xs : List α} :
    (∃ ys, xs.mapM f = .ok ys) ↔ ∀ x ∈ xs, ∃ y, f x = .ok y := by
  induction xs with
  | nil => simp [pure, Except.pure]
  | cons x xs ih =>
    rw [List.mapM_cons, List.forall_mem_cons, ← ih]
    cases hx : f x with
    | error fault => simp [bind, Except.bind]
    | ok y => cases hxs : xs.mapM f <;> simp [bind, Except.bind, pure, Except.pure]

namespace Value

/-- The values that stand in a value: the items of a list, and what the fields of an object hold. -/
def parts : Value → List Value
  | list items => items
  | object fields => fields.map Prod.snd
  | brokenObject fields => fields.map Prod.snd
  | _ => []

/-- What stands in a value, and how deep: the value itself, or what stands in one of its parts. -/
inductive Holds : Value → Nat → Value → Prop where
  | self (v : Value) : Holds v 0 v
  | inside {whole part v : Value} {depth : Nat} (mem : part ∈ whole.parts)
      (inner : Holds part depth v) : Holds whole (depth + 1) v

/-- Nothing stands `room` deep or deeper, and no whole number has too many digits. -/
def Fits (room : Nat) (whole : Value) : Prop :=
  ∀ depth v, Holds whole depth v →
    depth < room ∧
      ∀ n : Int, v = .int n → Decimal.digitCount n.natAbs ≤ Decimal.integerDigitLimit

theorem not_fits_zero (v : Value) : ¬ Fits 0 v := by
  intro h
  exact Nat.not_lt_zero 0 (h 0 v (.self v)).1

theorem fits_succ {room : Nat} {whole : Value} :
    Fits (room + 1) whole ↔
      (∀ n : Int, whole = .int n → Decimal.digitCount n.natAbs ≤ Decimal.integerDigitLimit) ∧
        ∀ part ∈ whole.parts, Fits room part := by
  constructor
  · intro h
    refine ⟨(h 0 whole (.self whole)).2, ?_⟩
    intro part hpart depth v hv
    obtain ⟨hdepth, hint⟩ := h (depth + 1) v (.inside hpart hv)
    exact ⟨Nat.lt_of_succ_lt_succ hdepth, hint⟩
  · rintro ⟨hint, hparts⟩ depth v hv
    cases hv with
    | self => exact ⟨Nat.succ_pos room, hint⟩
    | inside hpart hv =>
      obtain ⟨hdepth, hint⟩ := hparts _ hpart _ v hv
      exact ⟨Nat.succ_lt_succ hdepth, hint⟩

theorem exists_enclosed_iff {left right : String} {r : Except PlainFault (List String)} :
    (∃ s, enclosed left right r = .ok s) ↔ ∃ parts, r = .ok parts := by
  cases r <;> simp [enclosed]

theorem exists_shownField_iff {name : String} {r : Except PlainFault String} :
    (∃ s, shownField name r = .ok s) ↔ ∃ s, r = .ok s := by
  cases r <;> simp [shownField]

theorem exists_shownInt_iff {n : Int} :
    (∃ s, shownInt n = .ok s) ↔ Decimal.digitCount n.natAbs ≤ Decimal.integerDigitLimit := by
  unfold shownInt
  split <;> simp_all

theorem exists_shown_iff {room : Nat} {v : Value} : (∃ s, shown room v = .ok s) ↔ Fits room v := by
  induction room generalizing v with
  | zero => simp [shown, not_fits_zero]
  | succ room ih =>
    rw [fits_succ]
    cases v with
    | null | bool | real | text | brokenText => simp [shown, parts]
    | int n => simp [shown, parts, exists_shownInt_iff]
    | list items => simp [shown, parts, exists_enclosed_iff, exists_mapM_iff, ih]
    | object fields | brokenObject fields =>
      simp only [shown, parts, exists_enclosed_iff, exists_mapM_iff, exists_shownField_iff, ih,
        List.forall_mem_map, reduceCtorEq, false_imp_iff, implies_true, true_and]

/-- A value has a plain text unless something stands too deep in it or has too many digits. -/
theorem exists_plain_iff {v : Value} : (∃ s, v.plain = .ok s) ↔ v.Fits depthLimit := by
  cases v with
  | text s | brokenText s =>
    exact iff_of_true ⟨s, rfl⟩ (exists_shown_iff.mp ⟨Text.quoted s, rfl⟩)
  | _ => exact exists_shown_iff

end Value
end CurveSketch
