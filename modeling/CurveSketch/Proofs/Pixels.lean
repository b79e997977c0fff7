import CurveSketch.Proofs.Arithmetic
import CurveSketch.Proofs.Windows

/-!
# CurveSketch.Proofs.Pixels

The pixel transforms at their edges. Every window can be drawn: the extent of a range is rounded to
a positive double or to infinity, never to zero, so no transform divides by zero
(`Window.place_defined`). The lower left corner of a window is always the lower left corner of its
canvas; the upper right corner is the canvas's exactly where the extents are doubles
(`Range.Spans`), and nowhere at all where the bounds are so far apart that their difference is not
(`Window.place_corners`).
-/

namespace CurveSketch

namespace Decimal

section Sizes

variable {n : Nat} (hpos : 0 < n) (hn : n < 2 ^ 53)

include hpos hn

theorem zero_mul_ofNat : 0 * Float.ofNat n = 0 := by
  have hq : (0 : ℚ) < n := by exact_mod_cast hpos
  obtain ⟨m, e, hm, hunpack⟩ := unpack_of_value_pos (value?_ofNat hn) hq
  show Float.ofModel (Float.Model.pack
    (.mul .binary64 (.zero .positive) (Float.ofNat n).toModel.unpack)) = 0
  rw [hunpack]
  rfl

theorem one_mul_ofNat : 1 * Float.ofNat n = Float.ofNat n := by
  have hvalue := value?_ofNat hn
  have hproduct := mul_roundsTo value?_one hvalue
  rw [one_mul] at hproduct
  exact eq_of_value (hproduct.value_eq hvalue) hvalue (by exact_mod_cast hpos.ne')

end Sizes

theorem nan_mul (x : Float) : Float.nan * x = Float.nan := rfl

theorem sub_nan (x : Float) : x - Float.nan = Float.nan := by
  show Float.ofModel (Float.Model.pack
    (.sub .binary64 x.toModel.unpack .notANumber)) = Float.nan
  cases x.toModel.unpack <;> rfl

end Decimal

open Decimal

namespace Range

/-- The distance of the bounds is a finite double. -/
def Spans (r : Range) : Prop :=
  (r.high - r.low).isFinite = true

instance (r : Range) : Decidable r.Spans :=
  inferInstanceAs (Decidable (_ = true))

variable {r : Range}

theorem Valid.exists_value (h : r.Valid) :
    ∃ a b, (Decoded.ofFloat r.low).value? = some a ∧ (Decoded.ofFloat r.high).value? = some b ∧
      a < b := by
  obtain ⟨hlow, hhigh, hlt⟩ := h
  obtain ⟨a, ha⟩ := (isFinite_iff r.low).mp hlow
  obtain ⟨b, hb⟩ := (isFinite_iff r.high).mp hhigh
  exact ⟨a, b, ha, hb, (lt_iff_value_lt ha hb).mp hlt⟩

theorem spans_iff {a b : ℚ} (ha : (Decoded.ofFloat r.low).value? = some a)
    (hb : (Decoded.ofFloat r.high).value? = some b) (hlt : a < b) :
    r.Spans ↔ b - a < overflow := by
  unfold Spans
  rw [(sub_roundsTo hb ha).isFinite_iff, abs_of_pos (sub_pos.mpr hlt)]

theorem Valid.extent_pos (h : r.Valid) {d : ℚ}
    (hd : (Decoded.ofFloat (r.high - r.low)).value? = some d) : 0 < d := by
  obtain ⟨a, b, ha, hb, hlt⟩ := h.exists_value
  obtain ⟨v, hv, hrounded⟩ := (sub_roundsTo hb ha).value (isFinite_of_value hd)
  obtain rfl : v = d := Option.some.inj (hv.symm.trans hd)
  refine lt_of_le_of_ne (hrounded.nonneg (sub_pos.mpr hlt).le) fun hzero => ?_
  have hbeq := (beq_iff_value_eq hd value?_zero).mpr hzero.symm
  exact Bool.false_ne_true (h.extent_ne_zero.symm.trans hbeq)

theorem Valid.extent_infinite (h : r.Valid) (hspans : ¬r.Spans) :
    (r.high - r.low).toModel.unpack = .infinity .positive := by
  obtain ⟨a, b, ha, hb, hlt⟩ := h.exists_value
  cases (sub_roundsTo hb ha).isNearest (sub_pos.mpr hlt) with
  | infinite decoded large => exact unpack_of_infinite decoded
  | finite m e decoded small least even => exact absurd ((spans_iff ha hb hlt).mpr small) hspans

theorem Valid.share_eq (h : r.Valid) (x : Float) :
    r.share x = .ok ((x - r.low) / (r.high - r.low)) := by
  unfold share
  rw [h.extent_ne_zero]
  rfl

theorem Valid.share_low (h : r.Valid) : r.share r.low = .ok 0 := by
  rw [h.share_eq, sub_self_of_isFinite h.1]
  have hdiv : (0 : Float) / (r.high - r.low) = .ofModel (Float.Model.pack
    (.div .binary64 (.zero .positive) (r.high - r.low).toModel.unpack)) := rfl
  rw [hdiv]
  by_cases hspans : r.Spans
  · obtain ⟨d, hd⟩ := (isFinite_iff _).mp hspans
    obtain ⟨m, e, hm, hextent⟩ := unpack_of_value_pos hd (h.extent_pos hd)
    rw [hextent]
    rfl
  · rw [h.extent_infinite hspans]
    rfl

theorem Valid.share_high (h : r.Valid) :
    r.share r.high = .ok (if r.Spans then 1 else Float.nan) := by
  rw [h.share_eq]
  split
  case isTrue hspans =>
    obtain ⟨d, hd⟩ := (isFinite_iff _).mp hspans
    have hne := (h.extent_pos hd).ne'
    have hquotient := div_roundsTo hd hd hne
    rw [div_self hne] at hquotient
    rw [eq_of_value (hquotient.value_eq value?_one) value?_one one_ne_zero]
  case isFalse hspans =>
    have hdiv : (r.high - r.low) / (r.high - r.low) = .ofModel (Float.Model.pack
      (.div .binary64 (r.high - r.low).toModel.unpack (r.high - r.low).toModel.unpack)) := rfl
    rw [hdiv, h.extent_infinite hspans]
    rfl

end Range

theorem Number.toReal_natCast {n : Nat} (hn : n < 2 ^ 53) :
    (whole n).toReal = .ok (Float.ofNat n) := by
  simp only [toReal, Value.realOfInt, ofInt?_natCast hn]

namespace Window

variable {w : Window}

theorem placeX_of_share {x share columns : Float} {width : Number}
    (hshare : w.xRange.share x = .ok share) (hwidth : width.toReal = .ok columns) :
    w.placeX x width = .ok (share * columns) := by
  rw [placeX, hshare]
  simp only [hwidth]

theorem placeY_of_share {y share rows : Float} {height : Number}
    (hshare : w.yRange.share y = .ok share) (hheight : height.toReal = .ok rows) :
    w.placeY y height = .ok (rows - share * rows) := by
  rw [placeY, hshare]
  simp only [hheight]

/-- No pixel transform divides by zero, not even where the bounds are neighbouring doubles. It is
the scaled share for every double, and for every size that is a double. -/
theorem place_defined :
    (∀ low high : Float, low.isFinite = true → high.isFinite = true → low < high →
      (high - low == 0) = false) ∧
    ∀ (x y : Value) (w : Window), ofValues x y = .ok w → ∀ (z : Float) (size : Int),
      w.placeX z (.whole size) ≠ .error .divisionByZero ∧
      w.placeY z (.whole size) ≠ .error .divisionByZero ∧
      (size.natAbs < 2 ^ 53 → ∃ s, (Decoded.ofFloat s).value? = some (size : ℚ) ∧
        w.placeX z (.whole size) = .ok (w.pixelX z s) ∧
        w.placeY z (.whole size) = .ok (w.pixelY z s)) := by
  refine ⟨fun low high hlow hhigh hlt => sub_beq_zero hhigh hlow hlt, ?_⟩
  intro x y w hw z size
  obtain ⟨hx, hy⟩ := valid_of_ofValues hw
  refine ⟨?_, ?_, fun hsize => ?_⟩
  · rw [placeX, hx.share_eq]
    cases (Number.whole size).toReal <;> simp
  · rw [placeY, hy.share_eq]
    cases (Number.whole size).toReal <;> simp
  · obtain ⟨s, hs, hvalue⟩ := exists_ofInt? hsize
    have hreal : (Number.whole size).toReal = .ok s := by
      simp only [Number.toReal, Value.realOfInt, hs]
    exact ⟨s, hvalue, placeX_of_share (hx.share_eq z) hreal, placeY_of_share (hy.share_eq z) hreal⟩

/-- The narrowest range there is, from 0 to the smallest double. -/
theorem place_defined_subnormal :
    ofValues (.list [.int 0, .real (.ofBits 1)]) (.list [.int (-1), .int 1]) =
      .ok ⟨⟨0, .ofBits 1⟩, ⟨-1, 1⟩⟩ ∧
    (Float.ofBits 1 - 0 == 0) = false ∧
    ∀ z : Float, ∃ s, (Decoded.ofFloat s).value? = some ((200 : Int) : ℚ) ∧
      placeX ⟨⟨0, .ofBits 1⟩, ⟨-1, 1⟩⟩ z (.whole 200) = .ok (pixelX ⟨⟨0, .ofBits 1⟩, ⟨-1, 1⟩⟩ z s) := by
  have hw : ofValues (.list [.int 0, .real (.ofBits 1)]) (.list [.int (-1), .int 1]) =
      .ok ⟨⟨0, .ofBits 1⟩, ⟨-1, 1⟩⟩ := rfl
  refine ⟨hw, place_defined.1 0 (.ofBits 1) (by decide) (by decide) (by decide), fun z => ?_⟩
  obtain ⟨-, -, hplace⟩ := place_defined.2 _ _ _ hw z 200
  obtain ⟨s, hs, hplaceX, -⟩ := hplace (by decide)
  exact ⟨s, hs, hplaceX⟩

/-- The corners of a window on its canvas. The lower left one stays a corner always, the upper
right one where the extent is a double. -/
theorem place_corners {x y : Value} {w : Window} (hw : ofValues x y = .ok w) {width height : Nat}
    (hwidth : 0 < width) (hwidth' : width < 2 ^ 53) (hheight : 0 < height)
    (hheight' : height < 2 ^ 53) :
    w.placeX w.xRange.low (.whole width) = .ok 0 ∧
    w.placeX w.xRange.high (.whole width) =
      .ok (if w.xRange.Spans then Float.ofNat width else Float.nan) ∧
    w.placeY w.yRange.low (.whole height) = .ok (Float.ofNat height) ∧
    w.placeY w.yRange.high (.whole height) =
      .ok (if w.yRange.Spans then 0 else Float.nan) := by
  obtain ⟨hx, hy⟩ := valid_of_ofValues hw
  have hcolumns := Number.toReal_natCast hwidth'
  have hrows := Number.toReal_natCast hheight'
  refine ⟨?_, ?_, ?_, ?_⟩
  · rw [placeX_of_share hx.share_low hcolumns, zero_mul_ofNat hwidth hwidth']
  · rw [placeX_of_share hx.share_high hcolumns]
    split
    · rw [one_mul_ofNat hwidth hwidth']
    · rw [nan_mul]
  · rw [placeY_of_share hy.share_low hrows, zero_mul_ofNat hheight hheight', sub_zero_eq]
  · rw [placeY_of_share hy.share_high hrows]
    split
    · rw [one_mul_ofNat hheight hheight', sub_self_of_isFinite (isFinite_ofNat hheight')]
    · rw [nan_mul, sub_nan]

theorem place_corners_unequal :
    ofValues (.list [.int (-2), .int 2]) (.list [.int (-1), .int 3]) = .ok ⟨⟨-2, 2⟩, ⟨-1, 3⟩⟩ ∧
    placeX ⟨⟨-2, 2⟩, ⟨-1, 3⟩⟩ (-2) (.whole 200) = .ok 0 ∧
    placeX ⟨⟨-2, 2⟩, ⟨-1, 3⟩⟩ 2 (.whole 200) = .ok 200 ∧
    placeY ⟨⟨-2, 2⟩, ⟨-1, 3⟩⟩ (-1) (.whole 100) = .ok 100 ∧
    placeY ⟨⟨-2, 2⟩, ⟨-1, 3⟩⟩ 3 (.whole 100) = .ok 0 := by
  have hw : ofValues (.list [.int (-2), .int 2]) (.list [.int (-1), .int 3]) =
      .ok ⟨⟨-2, 2⟩, ⟨-1, 3⟩⟩ := rfl
  have hx : Range.Spans ⟨-2, 2⟩ := by decide
  have hy : Range.Spans ⟨-1, 3⟩ := by decide
  have hcorners := @place_corners _ _ _ hw 200 100 (by decide) (by decide) (by decide) (by decide)
  simp only [if_pos hx, if_pos hy] at hcorners
  exact ⟨hw, hcorners⟩

/-- Between `-1e308` and `1e308` there is no way to the right edge. -/
theorem place_corners_overflow :
    ofValues (.list [.real (-1e308), .real 1e308]) (.list [.int (-10), .int 10]) =
      .ok ⟨⟨-1e308, 1e308⟩, ⟨-10, 10⟩⟩ ∧
    placeX ⟨⟨-1e308, 1e308⟩, ⟨-10, 10⟩⟩ 1e308 (.whole 200) ≠ .ok 200 := by
  have hvalid : Range.Valid ⟨-1e308, 1e308⟩ :=
    ⟨by decide +kernel, by decide +kernel, by decide +kernel⟩
  exact ⟨ofValues_eq_ok.mpr ⟨Range.ofValue_toValue hvalid .x, rfl⟩, by decide +kernel⟩

end Window
end CurveSketch
