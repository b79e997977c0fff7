import CurveSketch.Proofs.Difference
import CurveSketch.Sampling

/-!
# CurveSketch.Proofs.Windows

What every window holds. A range is made only of finite bounds in increasing order
(`Range.ofBounds_eq_ok`), whatever the values were that it was read from
(`Window.valid_of_ofValues`), and a window that is read again from its own ranges is the same window
(`windowOf_toValue`). The pixel transforms divide by a range's extent, which is never zero
(`Range.Valid.extent_ne_zero`).
-/

namespace CurveSketch
namespace Range

theorem ofBounds_eq_ok {axis : Axis} {low high : Float} {r : Range} :
    ofBounds axis low high = .ok r ↔ r.Valid ∧ r = ⟨low, high⟩ := by
  unfold ofBounds
  constructor
  · intro h
    split at h
    · rename_i hfinite
      split at h
      · rename_i hlt
        cases h
        rw [Bool.and_eq_true] at hfinite
        exact ⟨⟨hfinite.1, hfinite.2, hlt⟩, rfl⟩
      · cases h
    · cases h
  · rintro ⟨⟨hlow, hhigh, hlt⟩, rfl⟩
    rw [hlow, hhigh, Bool.and_true, if_pos rfl, if_pos hlt]

theorem valid_of_ofValue {axis : Axis} {v : Value} {r : Range} (h : ofValue axis v = .ok r) :
    r.Valid := by
  unfold ofValue at h
  split at h
  · unfold ofItems at h
    split at h
    · exact (ofBounds_eq_ok.mp h).1
    · cases h
    · cases h
  · cases h

theorem ofValue_toValue {r : Range} (h : r.Valid) (axis : Axis) :
    ofValue axis r.toValue = .ok r :=
  ofBounds_eq_ok.mpr ⟨h, rfl⟩

theorem elements?_of_ofValue {axis : Axis} {v : Value} {r : Range} (h : ofValue axis v = .ok r) :
    ∃ items, v.elements? = some items := by
  unfold ofValue at h
  split at h
  · rename_i items hitems
    exact ⟨items, hitems⟩
  · cases h

/-- The extent of a range is no zero, also where the bounds are neighbouring doubles. -/
theorem Valid.extent_ne_zero {r : Range} (h : r.Valid) : (r.high - r.low == 0) = false :=
  Decimal.sub_beq_zero h.2.1 h.1 h.2.2

end Range

theorem Window.ofValues_eq_ok {x y : Value} {w : Window} :
    ofValues x y = .ok w ↔
      Range.ofValue .x x = .ok w.xRange ∧ Range.ofValue .y y = .ok w.yRange := by
  unfold ofValues
  constructor
  · intro h
    split at h
    · cases h
    · rename_i hx
      split at h
      · cases h
      · rename_i hy
        cases h
        exact ⟨hx, hy⟩
  · rintro ⟨hx, hy⟩
    rw [hx, hy]

theorem Window.valid_of_ofValues {x y : Value} {w : Window} (h : ofValues x y = .ok w) :
    w.Valid := by
  obtain ⟨hx, hy⟩ := ofValues_eq_ok.mp h
  exact ⟨Range.valid_of_ofValue hx, Range.valid_of_ofValue hy⟩

theorem windowOf_eq_ok {x y : Value} {w : Window} :
    windowOf x y = .ok w ↔ Window.ofValues x y = .ok w := by
  unfold windowOf
  constructor
  · intro h
    split at h
    · cases h
    · split at h
      · cases h
      · split at h
        · rename_i hw
          cases h
          exact hw
        · cases h
  · intro h
    obtain ⟨hx, hy⟩ := Window.ofValues_eq_ok.mp h
    obtain ⟨xs, hxs⟩ := Range.elements?_of_ofValue hx
    obtain ⟨ys, hys⟩ := Range.elements?_of_ofValue hy
    rw [hxs, hys, h]

theorem windowOf_toValue {w : Window} (h : w.Valid) :
    windowOf w.xRange.toValue w.yRange.toValue = .ok w :=
  windowOf_eq_ok.mpr (Window.ofValues_eq_ok.mpr
    ⟨Range.ofValue_toValue h.1 .x, Range.ofValue_toValue h.2 .y⟩)

end CurveSketch
