import CurveSketch.Text.Blank
import CurveSketch.Text.Case
import Mathlib.Data.List.Basic

/-!
# CurveSketch.Proofs.Casing

What lower case leaves as it is. Characters in front of the capital letters, the digits and the
point among them, keep their places among each other and none is added, whatever letters of other
scripts stand between them (`filter_lower`). A text of digits, symbols and small letters is its own
lower case (`lower_eq_self`), also with blanks in it (`settled_of_isBlank`, `lower_of_settled`).
-/

namespace CurveSketch
namespace Text

/-- The table begins with the capital letters A to Z; nothing else below U+00C0 is in it. -/
theorem lowerShifts_first : ∀ run ∈ lowerShifts,
    run.first = 0x41 ∧ run.last = 0x5A ∨ 0xC0 ≤ run.first := by
  decide +kernel

theorem lowerShifts_image : ∀ run ∈ lowerShifts, 0x41 ≤ run.first + run.shift ∧
    (run.last + run.shift < 0xD800 ∨
      0xDFFF < run.first + run.shift ∧ run.last + run.shift < 0x110000) := by
  decide +kernel

theorem covers_iff {run : CaseShift} {n : Nat} : run.covers n = true ↔
    (run.first ≤ n ∧ n ≤ run.last) ∧ (n - run.first) % run.step = 0 := by
  simp only [CaseShift.covers, Bool.and_eq_true, decide_eq_true_eq, beq_iff_eq]

theorem shiftCase_cases (c : Char) : shiftCase lowerShifts c = c ∨
    ∃ run ∈ lowerShifts, run.covers c.toNat = true ∧
      ((shiftCase lowerShifts c).toNat : Int) = c.toNat + run.shift := by
  unfold shiftCase
  split
  · rename_i run hfound
    have hcovers : run.covers c.toNat = true := by
      simpa using List.find?_some hfound
    obtain ⟨⟨hfirst, hlast⟩, -⟩ := covers_iff.mp hcovers
    have hrun := List.mem_of_find?_eq_some hfound
    have himage := lowerShifts_image run hrun
    have hvalid : Nat.isValidChar ((c.toNat : Int) + run.shift).toNat := by
      unfold Nat.isValidChar
      omega
    refine .inr ⟨run, hrun, hcovers, ?_⟩
    rw [Char.ofNat, dif_pos hvalid]
    show (((c.toNat : Int) + run.shift).toNat : Int) = _
    omega
  · exact .inl rfl

theorem lowerChar_of_small {c : Char} (hsmall : c.toNat < 0xC0)
    (hcapital : c.toNat < 0x41 ∨ 0x5A < c.toNat) : lowerChar c = [c] := by
  have hdotted : c ≠ '\u0130' := by
    rintro rfl
    exact absurd hsmall (by decide)
  rw [lowerChar, if_neg hdotted]
  rcases shiftCase_cases c with hsame | ⟨run, hrun, hcovers, -⟩
  · rw [hsame]
  · have := lowerShifts_first run hrun
    have := (covers_iff.mp hcovers).1
    omega

theorem le_toNat_of_mem_lowerChar {c d : Char} (hc : 0x41 ≤ c.toNat) (hd : d ∈ lowerChar c) :
    0x41 ≤ d.toNat := by
  unfold lowerChar at hd
  split at hd
  · simp only [List.mem_cons, List.not_mem_nil, or_false] at hd
    rcases hd with rfl | rfl <;> decide
  · rw [List.mem_singleton] at hd
    subst hd
    rcases shiftCase_cases c with hsame | ⟨run, hrun, hcovers, hshift⟩
    · rw [hsame]
      exact hc
    · have := (lowerShifts_image run hrun).1
      have := (covers_iff.mp hcovers).1
      omega

section Filter

variable {p : Char → Bool} (hp : ∀ c, p c = true → c.toNat < 0x41)

include hp

theorem not_of_large {c : Char} (hc : 0x41 ≤ c.toNat) : ¬ p c = true := by
  intro hpc
  have := hp c hpc
  omega

theorem filter_lowerChar (c : Char) : (lowerChar c).filter p = [c].filter p := by
  by_cases hc : c.toNat < 0x41
  · rw [lowerChar_of_small (by omega) (.inl hc)]
  · rw [List.filter_eq_nil_iff.mpr, List.filter_cons_of_neg (not_of_large hp (by omega)),
      List.filter_nil]
    intro d hd
    exact not_of_large hp (le_toNat_of_mem_lowerChar (by omega) hd)

theorem filter_lowerFrom (before : Bool) (cs : List Char) :
    (lowerFrom before cs).filter p = cs.filter p := by
  induction cs generalizing before with
  | nil => rfl
  | cons c rest ih =>
    unfold lowerFrom
    split
    · rename_i hsigma
      -- a capital sigma and both of its small forms stand behind the capital letters
      have hform : ¬ p (if before && !letterFollows rest then '\u03c2' else '\u03c3') = true := by
        split <;> exact not_of_large hp (by decide)
      have hcapital : ¬ p c = true := by
        rw [hsigma]
        exact not_of_large hp (by decide)
      rw [List.filter_cons_of_neg hform, List.filter_cons_of_neg hcapital, ih]
    · rw [List.filter_append, filter_lowerChar hp, ih, ← List.filter_append, List.singleton_append]

theorem filter_lower (cs : List Char) : (lower cs).filter p = cs.filter p :=
  filter_lowerFrom hp false cs

end Filter

/-! ### Texts that are in lower case -/

/-- A character that lower case leaves as it is wherever it stands. -/
def Settled (c : Char) : Prop :=
  c ≠ '\u03a3' ∧ lowerChar c = [c]

theorem settled_of_small {c : Char} (hsmall : c.toNat < 0xC0)
    (hcapital : c.toNat < 0x41 ∨ 0x5A < c.toNat) : Settled c := by
  refine ⟨?_, lowerChar_of_small hsmall hcapital⟩
  rintro rfl
  exact absurd hsmall (by decide)

theorem settled_of_not_covers {c : Char} (hsigma : c ≠ '\u03a3') (hdotted : c ≠ '\u0130')
    (h : ∀ run ∈ lowerShifts, run.covers c.toNat = false) : Settled c := by
  have hsame : shiftCase lowerShifts c = c := by
    rw [shiftCase, List.find?_eq_none.mpr (by simpa using h)]
  refine ⟨hsigma, ?_⟩
  rw [lowerChar, if_neg hdotted, hsame]

theorem lowerFrom_of_settled {cs : List Char} (h : ∀ c ∈ cs, Settled c) (before : Bool) :
    lowerFrom before cs = cs := by
  induction cs generalizing before with
  | nil => rfl
  | cons c rest ih =>
    obtain ⟨hsigma, hsame⟩ := h c (by simp)
    rw [lowerFrom, if_neg hsigma, hsame, ih (fun d hd => h d (by simp [hd])),
      List.singleton_append]

theorem lower_of_settled {cs : List Char} (h : ∀ c ∈ cs, Settled c) : lower cs = cs :=
  lowerFrom_of_settled h false

/-- A text without capital letters and without letters beyond U+00BF is its own lower case. -/
theorem lower_eq_self {cs : List Char} (h : ∀ c ∈ cs,
    c.toNat < 0xC0 ∧ (c.toNat < 0x41 ∨ 0x5A < c.toNat)) : lower cs = cs := by
  refine lower_of_settled ?_
  intro c hc
  exact settled_of_small (h c hc).1 (h c hc).2

/-! ### Blanks -/

def blankRuns : List (Nat × Nat) := [
  (0x9, 0xD), (0x1C, 0x20), (0x85, 0x85), (0xA0, 0xA0), (0x1680, 0x1680), (0x2000, 0x200A),
  (0x2028, 0x2029), (0x202F, 0x202F), (0x205F, 0x205F), (0x3000, 0x3000)]

theorem exists_blankRun {c : Char} (h : isBlank c = true) :
    ∃ blank ∈ blankRuns, blank.1 ≤ c.toNat ∧ c.toNat ≤ blank.2 := by
  simp only [isBlank, isWhiteSpace, Bool.or_eq_true, Bool.and_eq_true, decide_eq_true_eq,
    beq_iff_eq] at h
  simp only [blankRuns, List.exists_mem_cons_iff, List.not_mem_nil, false_and, exists_false,
    or_false]
  omega

def apart (run other : Nat × Nat) : Bool :=
  run.2.blt other.1 || other.2.blt run.1

theorem not_mem_of_apart {run other : Nat × Nat} {n : Nat} (h : apart run other = true)
    (hrun : run.1 ≤ n ∧ n ≤ run.2) : ¬ (other.1 ≤ n ∧ n ≤ other.2) := by
  simp only [apart, Bool.or_eq_true, Nat.blt_eq] at h
  omega

theorem blankRuns_apart : (blankRuns.all fun blank => casedRuns.all (apart blank) &&
    ignorableRuns.all (apart blank) &&
      lowerShifts.all fun run => apart blank (run.first, run.last)) = true := by
  decide +kernel

section Blank

variable {c : Char} (h : isBlank c = true)

include h

theorem tables_apart : inRuns casedRuns c.toNat = false ∧ inRuns ignorableRuns c.toNat = false ∧
    ∀ run ∈ lowerShifts, run.covers c.toNat = false := by
  obtain ⟨blank, hmem, hblank⟩ := exists_blankRun h
  have hapart := List.all_eq_true.mp blankRuns_apart blank hmem
  simp only [Bool.and_eq_true, List.all_eq_true] at hapart
  obtain ⟨⟨hcased, hignorable⟩, hshifts⟩ := hapart
  have hruns {runs : List (Nat × Nat)} (hall : ∀ run ∈ runs, apart blank run = true) :
      inRuns runs c.toNat = false := by
    rw [inRuns, List.any_eq_false]
    intro run hrun
    simpa only [Bool.and_eq_true, decide_eq_true_eq] using not_mem_of_apart (hall run hrun) hblank
  refine ⟨hruns hcased, hruns hignorable, ?_⟩
  intro run hrun
  rw [Bool.eq_false_iff]
  intro hcovers
  exact not_mem_of_apart (hshifts run hrun) hblank (covers_iff.mp hcovers).1

theorem isCased_of_isBlank : isCased c = false :=
  (tables_apart h).1

theorem isIgnorable_of_isBlank : isIgnorable c = false :=
  (tables_apart h).2.1

theorem settled_of_isBlank : Settled c := by
  refine settled_of_not_covers ?_ ?_ (tables_apart h).2.2
  · rintro rfl
    exact absurd h (by decide)
  · rintro rfl
    exact absurd h (by decide)

end Blank
end Text
end CurveSketch
