import CurveSketch.Proofs.Pixels
import CurveSketch.Proofs.Sampling

/-!
# CurveSketch.Proofs.Grid

The abscissas of the columns. They start at the lower bound and never go back, since every rounding
on the way from the index to the abscissa keeps the order (`abscissa_mono`). How far they go is not
so sure: the last one may be rounded past every double, and where the bounds are farther apart than
any double none of them is a number (`grid_isGrid`). Neither happens to a range of no more than
`2^1021`, a quarter of the largest double.
-/

namespace CurveSketch

open Decimal

def Range.abscissa (r : Range) (width i : Nat) : Float :=
  r.low + Float.ofNat i * ((r.high - r.low) / Float.ofNat width)

theorem columnInputs_eq (width : Nat) (r : Range) :
    columnInputs width r = (List.range (width + 1)).map (r.abscissa width) := rfl

/-- Finite abscissas from the lower bound on, in order. -/
structure IsGrid (r : Range) (xs : List Float) : Prop where
  first : ∃ x, xs.head? = some x ∧ (x == r.low) = true
  finite : ∀ x ∈ xs, x.isFinite = true
  sorted : xs.Pairwise (· ≤ ·)

namespace Range

variable {r : Range} {width : Nat}

theorem not_isFinite_abscissa (hspans : ¬r.Spans) (i : Nat) :
    ¬(r.abscissa width i).isFinite = true := fun h =>
  hspans (isFinite_of_div (isFinite_of_mul (isFinite_of_add h).2).2)

/-- The step of a grid over the distance `d`: the extent divided by the width, both rounded. -/
structure StepValue (r : Range) (width : Nat) (d extent step : ℚ) : Prop where
  extent_rounded : RoundedTo d extent
  value : (Decoded.ofFloat ((r.high - r.low) / Float.ofNat width)).value? = some step
  rounded : RoundedTo (extent / width) step
  extent_nonneg : 0 ≤ extent
  nonneg : 0 ≤ step

theorem exists_step {a b : ℚ} (ha : (Decoded.ofFloat r.low).value? = some a)
    (hb : (Decoded.ofFloat r.high).value? = some b) (hlt : a < b) (hspans : r.Spans)
    (hwidth : 0 < width) (hwidth' : width < 2 ^ 53) :
    ∃ extent step, StepValue r width (b - a) extent step := by
  obtain ⟨d, hd, hrounded⟩ := (sub_roundsTo hb ha).value hspans
  have hw : (1 : ℚ) ≤ width := by exact_mod_cast hwidth
  have hd0 := hrounded.nonneg (sub_nonneg.mpr hlt.le)
  have hquotient := div_roundsTo hd (value?_ofNat hwidth') (by positivity)
  have hfits : |d / width| < overflow := by
    rw [abs_of_nonneg (by positivity)]
    exact (div_le_self hd0 hw).trans_lt ((le_abs_self d).trans_lt (abs_lt_overflow hd))
  obtain ⟨s, hs, hrounded'⟩ := hquotient.value (hquotient.isFinite_iff.mpr hfits)
  exact ⟨d, s, hrounded, hs, hrounded', hd0, hrounded'.nonneg (by positivity)⟩

theorem abscissa_mono (hr : r.Valid) (hspans : r.Spans) (hwidth : 0 < width)
    (hwidth' : width < 2 ^ 53) {i j : Nat} (hij : i ≤ j) (hj : j ≤ width) :
    r.abscissa width i ≤ r.abscissa width j := by
  obtain ⟨a, b, ha, hb, hlt⟩ := hr.exists_value
  obtain ⟨d, s, hstep⟩ := exists_step ha hb hlt hspans hwidth hwidth'
  have hi := mul_roundsTo (value?_ofNat (n := i) (by omega)) hstep.value
  have hj := mul_roundsTo (value?_ofNat (n := j) (by omega)) hstep.value
  have hs := hstep.nonneg
  exact add_mono hr.1 (hi.le hj (by gcongr))

theorem abscissa_zero (hr : r.Valid) (hspans : r.Spans) (hwidth : 0 < width)
    (hwidth' : width < 2 ^ 53) :
    (r.abscissa width 0 == r.low) = true ∧ (r.abscissa width 0).isFinite = true := by
  obtain ⟨a, b, ha, hb, hlt⟩ := hr.exists_value
  obtain ⟨d, s, hstep⟩ := exists_step ha hb hlt hspans hwidth hwidth'
  have hproduct := mul_roundsTo (value?_ofNat (n := 0) (by decide)) hstep.value
  rw [Nat.cast_zero, zero_mul] at hproduct
  have hsum := add_roundsTo ha (hproduct.value_eq value?_zero)
  rw [add_zero] at hsum
  have hfirst := hsum.value_eq ha
  exact ⟨(beq_iff_value_eq hfirst ha).mpr rfl, isFinite_of_value hfirst⟩

/-- All steps together are the extent again, but for what the quotient was rounded by. -/
theorem StepValue.width_mul_le {d extent step : ℚ} (h : StepValue r width d extent step)
    (hwidth : 0 < width) :
    width * step ≤ extent + extent / 2 ^ 53 + width * 2 ^ (-1075 : Int) := by
  have hw : (0 : ℚ) < width := by exact_mod_cast hwidth
  have hextent := h.extent_nonneg
  have herror := (abs_le.mp h.rounded.near).2
  rw [abs_of_nonneg (by positivity)] at herror
  calc width * step ≤ width * (extent / width + extent / width / 2 ^ 53 + 2 ^ (-1075 : Int)) := by
        gcongr
        linarith
    _ = extent + extent / 2 ^ 53 + width * 2 ^ (-1075 : Int) := by field_simp

/-- Three roundings carry a short extent no farther than half a place of the largest double. -/
theorem StepValue.product_lt {d extent step p : ℚ} (h : StepValue r width d extent step)
    (hwidth : 0 < width) (hwidth' : width < 2 ^ 53) (hd : 0 ≤ d) (hshort : d ≤ 2 ^ (1021 : Int))
    (hp : RoundedTo (width * step) p) : p < d + 2 ^ (970 : Int) := by
  have hw' : (width : ℚ) ≤ 2 ^ 53 := by exact_mod_cast hwidth'.le
  have hstep := h.nonneg
  have hsteps := h.width_mul_le hwidth
  have herror := (abs_le.mp h.extent_rounded.near).2
  have herror' := (abs_le.mp hp.near).2
  rw [abs_of_nonneg (by positivity)] at herror herror'
  have hlarge : (1 : ℚ) ≤ 2 ^ (970 : Int) := one_le_zpow₀ one_le_two (by norm_num)
  have hsmall : (2 : ℚ) ^ 60 * 2 ^ (-1075 : Int) ≤ 1 := by
    rw [← zpow_natCast, ← zpow_add₀ two_ne_zero]
    exact zpow_le_one_of_nonpos₀ one_le_two (by norm_num)
  have hpos : (0 : ℚ) < 2 ^ (-1075 : Int) := by positivity
  rw [pow_1021] at hshort
  -- three of the four quarters of the half place are for the roundings, the last for underflow
  generalize (2 : ℚ) ^ (970 : Int) = top at hshort hlarge ⊢
  generalize (2 : ℚ) ^ (-1075 : Int) = bottom at hsteps herror herror' hsmall hpos
  have hbottoms : width * bottom ≤ 2 ^ 53 * bottom := by gcongr
  linarith

theorem isFinite_abscissa_last (hwidth : 0 < width) (hwidth' : width < 2 ^ 53) {a b : ℚ}
    (ha : (Decoded.ofFloat r.low).value? = some a) (hb : (Decoded.ofFloat r.high).value? = some b)
    (hlt : a < b) (hspans : r.Spans) (hshort : b - a ≤ 2 ^ (1021 : Int)) :
    (r.abscissa width width).isFinite = true := by
  obtain ⟨d, s, hstep⟩ := exists_step ha hb hlt hspans hwidth hwidth'
  have hs := hstep.nonneg
  have hproduct := mul_roundsTo (value?_ofNat hwidth') hstep.value
  have hlow := (abs_lt.mp (abs_lt_overflow ha)).1
  have hhigh := value_le_largest hb
  have hlt_last {p : ℚ} (hp : RoundedTo (width * s) p) : p < b - a + 2 ^ (970 : Int) :=
    hstep.product_lt hwidth hwidth' (sub_nonneg.mpr hlt.le) hshort hp
  have hfits : |width * s| < overflow := by
    obtain ⟨p, hp, -⟩ := hproduct.exists_rounded
    rw [hp.lt_overflow_iff, abs_of_nonneg (hp.nonneg (by positivity))]
    exact ((hlt_last hp).trans_le (add_le_add_left hshort _)).trans
      (short_lt_overflow.trans_le overflow_le_pow)
  obtain ⟨p, hp, hrounded⟩ := hproduct.value (hproduct.isFinite_iff.mpr hfits)
  have hlast := hlt_last hrounded
  have hp0 := hrounded.nonneg (by positivity)
  refine (add_roundsTo ha hp).isFinite_iff.mpr (abs_lt.mpr ⟨?_, ?_⟩) <;> linarith

end Range

theorem grid_eq {width : Nat} (hwidth : 0 < width) (hwidth' : width < 2 ^ 53) (r : Range) :
    grid width r = .ok (columnInputs width r) := by
  unfold grid
  rw [ofInt?_natCast hwidth', isCountable_natCast hwidth']
  have hzero : ((width : Int) == 0) = false := by
    rw [beq_eq_false_iff_ne]
    omega
  simp [hzero]

theorem mem_columnInputs {width : Nat} {r : Range} {x : Float} :
    x ∈ columnInputs width r ↔ ∃ i ≤ width, r.abscissa width i = x := by
  rw [columnInputs_eq, List.mem_map]
  simp only [List.mem_range, Nat.lt_succ_iff]

section Columns

variable {r : Range} {width : Nat} (hr : r.Valid) (hwidth : 0 < width) (hwidth' : width < 2 ^ 53)

include hr hwidth hwidth'

theorem columnInputs_sorted (hspans : r.Spans) : (columnInputs width r).Pairwise (· ≤ ·) := by
  rw [columnInputs_eq, List.pairwise_map]
  refine List.pairwise_le_range.imp_of_mem fun {i j} _ hj hij => ?_
  exact Range.abscissa_mono hr hspans hwidth hwidth' hij
    (Nat.lt_succ_iff.mp (List.mem_range.mp hj))

theorem columnInputs_first (hspans : r.Spans) :
    ∃ x, (columnInputs width r).head? = some x ∧ (x == r.low) = true :=
  ⟨r.abscissa width 0, by rw [columnInputs_eq, List.head?_map, List.head?_range]; rfl,
    (Range.abscissa_zero hr hspans hwidth hwidth').1⟩

/-- All columns are finite as soon as the last one is. -/
theorem isGrid_iff : IsGrid r (columnInputs width r) ↔ (r.abscissa width width).isFinite = true := by
  refine ⟨fun h => h.finite _ (mem_columnInputs.mpr ⟨width, le_rfl, rfl⟩), fun hlast => ?_⟩
  have hspans : r.Spans := by
    by_contra hspans
    exact Range.not_isFinite_abscissa hspans width hlast
  refine ⟨columnInputs_first hr hwidth hwidth' hspans, fun x hx => ?_,
    columnInputs_sorted hr hwidth hwidth' hspans⟩
  obtain ⟨i, hi, rfl⟩ := mem_columnInputs.mp hx
  have hmono {i j : Nat} := @Range.abscissa_mono r width hr hspans hwidth hwidth' i j
  exact isFinite_of_between (Range.abscissa_zero hr hspans hwidth hwidth').2 hlast
    (hmono (Nat.zero_le i) hi) (hmono hi le_rfl)

end Columns

/-- What the columns of an accepted range are. They are a grid exactly where the last one is finite,
as it is on every range of no more than `2^1021`. Where the bounds are a double apart the columns
start at the lower bound and keep the order even beyond the doubles; where they are not, no column
is finite. -/
theorem grid_isGrid {axis : Axis} {v : Value} {r : Range} (hr : Range.ofValue axis v = .ok r)
    {width : Nat} (hwidth : 0 < width) (hwidth' : width < 2 ^ 53) :
    ∃ xs, grid width r = .ok xs ∧ xs.length = width + 1 ∧
      (IsGrid r xs ↔ ∃ x, xs.getLast? = some x ∧ x.isFinite = true) ∧
      (r.Spans → (∃ x, xs.head? = some x ∧ (x == r.low) = true) ∧ xs.Pairwise (· ≤ ·)) ∧
      (¬r.Spans → ∀ x ∈ xs, x.isFinite = false) ∧
      (∀ a b, (Decoded.ofFloat r.low).value? = some a → (Decoded.ofFloat r.high).value? = some b →
        b - a ≤ 2 ^ (1021 : Int) → IsGrid r xs) := by
  have hvalid := Range.valid_of_ofValue hr
  refine ⟨_, grid_eq hwidth hwidth' r, length_columnInputs width r, ?_, fun hspans => ?_,
    fun hspans x hx => ?_, fun a b ha hb hshort => ?_⟩
  · rw [isGrid_iff hvalid hwidth hwidth', columnInputs_eq, List.getLast?_map,
      List.getLast?_range]
    simp
  · exact ⟨columnInputs_first hvalid hwidth hwidth' hspans,
      columnInputs_sorted hvalid hwidth hwidth' hspans⟩
  · obtain ⟨i, -, rfl⟩ := mem_columnInputs.mp hx
    exact Bool.eq_false_iff.mpr (Range.not_isFinite_abscissa hspans i)
  · have hlt : a < b := (lt_iff_value_lt ha hb).mp hvalid.2.2
    have hspans : r.Spans := by
      have hpos : (0 : ℚ) < 2 ^ (970 : Int) := by positivity
      rw [Range.spans_iff ha hb hlt]
      exact hshort.trans_lt ((lt_add_of_pos_right _ hpos).trans short_lt_overflow)
    exact (isGrid_iff hvalid hwidth hwidth').mpr
      (Range.isFinite_abscissa_last hwidth hwidth' ha hb hlt hspans hshort)

theorem grid_isGrid_whole :
    Range.ofValue .x (.list [.int (-2), .int 2]) = .ok ⟨-2, 2⟩ ∧
    grid 4 ⟨-2, 2⟩ = .ok [-2, -1, 0, 1, 2] ∧ IsGrid ⟨-2, 2⟩ [-2, -1, 0, 1, 2] := by
  have hr : Range.ofValue .x (.list [.int (-2), .int 2]) = .ok ⟨-2, 2⟩ := rfl
  have hgrid : grid 4 ⟨-2, 2⟩ = .ok [-2, -1, 0, 1, 2] := rfl
  obtain ⟨xs, hxs, -, hisGrid, -⟩ := @grid_isGrid .x _ _ hr 4 (by decide) (by decide)
  obtain rfl := Except.ok.inj (hxs.symm.trans hgrid)
  exact ⟨hr, hgrid, hisGrid.mpr ⟨2, rfl, rfl⟩⟩

/-- A last column past the largest double, on a range that is a double wide. -/
example : Range.Spans ⟨0, 1.7976931348623157e308⟩ ∧
    (columnInputs 3 ⟨0, 1.7976931348623157e308⟩).getLast? = some Float.inf := by
  decide +kernel

/-- Between `-1e308` and `1e308` no column is a number. -/
theorem grid_overflow :
    Range.ofValue .x (.list [.real (-1e308), .real 1e308]) = .ok ⟨-1e308, 1e308⟩ ∧
    grid 1 ⟨-1e308, 1e308⟩ = .ok [Float.nan, Float.inf] ∧
    ¬IsGrid ⟨-1e308, 1e308⟩ [Float.nan, Float.inf] := by
  have hvalid : Range.Valid ⟨-1e308, 1e308⟩ :=
    ⟨by decide +kernel, by decide +kernel, by decide +kernel⟩
  refine ⟨Range.ofValue_toValue hvalid .x, by decide +kernel, fun h => ?_⟩
  exact absurd (h.finite Float.nan (.head _)) (by decide)

end CurveSketch
