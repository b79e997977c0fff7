import CurveSketch.Proofs.Packing
import CurveSketch.Proofs.Rounding

/-!
# CurveSketch.Proofs.Nearest

Rounded on the grid is nearest among all doubles. A number rounded half to even on the grid of the
doubles at its size (`Rounding.Rounds`) is packed into a double that no other double beats, ties
going to the even mantissa and too large numbers to infinity (`Decimal.IsNearest`).
-/

namespace CurveSketch
namespace Decimal

/-- The rational that a finite double is. -/
def Decoded.value? : Decoded → Option ℚ
  | .finite negative mantissa exponent =>
    some ((if negative then -(mantissa : ℚ) else mantissa) * 2 ^ exponent)
  | _ => none

/-- Half a step above the largest double. From here on rounding goes to infinity. -/
def overflow : ℚ := (2 ^ 54 - 1) * 2 ^ (970 : Int)

theorem overflow_eq : overflow = (2 ^ 53 - 1 / 2) * 2 ^ (971 : Int) := by
  rw [overflow, show (971 : Int) = 1 + 970 by norm_num, zpow_add₀ two_ne_zero]
  ring

theorem overflow_le_pow : overflow ≤ 2 ^ (1024 : Int) := by
  calc overflow ≤ 2 ^ (54 : Int) * 2 ^ (970 : Int) := by
        unfold overflow
        gcongr
        norm_num
    _ = 2 ^ (1024 : Int) := by rw [← zpow_add₀ two_ne_zero]; rfl

/-- `x` is the double nearest to the non-negative number `q`: no finite double is nearer, of two
equally near ones it is the one with the even mantissa, and it is infinite from `overflow` on. -/
inductive IsNearest (q : ℚ) (x : Float) : Prop where
  | finite (mantissa : Nat) (exponent : Int)
      (decoded : Decoded.ofFloat x = .finite false mantissa exponent)
      (small : q < overflow)
      (least : ∀ y w, (Decoded.ofFloat y).value? = some w →
        |q - mantissa * 2 ^ exponent| ≤ |q - w|)
      (even : ∀ y w, (Decoded.ofFloat y).value? = some w → w ≠ mantissa * 2 ^ exponent →
        |q - mantissa * 2 ^ exponent| = |q - w| → mantissa % 2 = 0)
  | infinite (decoded : Decoded.ofFloat x = .infinite false) (large : overflow ≤ q)

theorem Decoded.value?_eq_some {y : Float} {w : ℚ} (h : (Decoded.ofFloat y).value? = some w) :
    ∃ k e : Int, k < 2 ^ 53 ∧ -1074 ≤ e ∧ w = k * 2 ^ e := by
  cases hdecoded : Decoded.ofFloat y with
  | nan => simp [hdecoded, Decoded.value?] at h
  | infinite negative => simp [hdecoded, Decoded.value?] at h
  | finite negative m e =>
    obtain ⟨biased, fraction, hfraction, -, hform⟩ := Decoded.ofFloat_eq_finite hdecoded
    rw [hdecoded, Decoded.value?, Option.some.injEq] at h
    cases negative with
    | false => exact ⟨m, e, by omega, by omega, by simpa using h.symm⟩
    | true => exact ⟨-m, e, by omega, by omega, by simpa using h.symm⟩

end Decimal

namespace Rounding

open Decimal

variable {x : ℚ} {r : Nat} {t : Int}

theorem OnGrid.scaled_dist (n : ℚ) : |x - n * 2 ^ t| = |x / 2 ^ t - n| * 2 ^ t := by
  have hstep : (0 : ℚ) < 2 ^ t := by positivity
  rw [← abs_of_pos hstep, ← abs_mul, abs_of_pos hstep, sub_mul, div_mul_cancel₀ _ hstep.ne']

theorem OnGrid.dist_le (h : OnGrid x r t) (n : Int) : |x - r * 2 ^ t| ≤ |x - n * 2 ^ t| := by
  rw [scaled_dist, scaled_dist]
  exact mul_le_mul_of_nonneg_right (h.rounded.le_dist n) (by positivity)

/-- A double with a place below the grid is smaller than every double at `x`, so it is farther
from `x` than the smallest of those. -/
theorem OnGrid.on_grid_or_farther (h : OnGrid x r t) {k e : Int} (hk : k < 2 ^ 53)
    (he : -1074 ≤ e) :
    (∃ n : Int, (k * 2 ^ e : ℚ) = n * 2 ^ t) ∨ |x - r * 2 ^ t| < |x - k * 2 ^ e| := by
  by_cases hte : t ≤ e
  · left
    refine ⟨k * 2 ^ (e - t).toNat, ?_⟩
    push_cast
    rw [← zpow_natCast, Int.toNat_of_nonneg (by omega), mul_assoc, ← zpow_add₀ two_ne_zero]
    congr 2
    omega
  · right
    have hlower := h.lower.resolve_left (by omega)
    have hsmall : (k * 2 ^ e : ℚ) < 2 ^ 52 * 2 ^ t := by
      have hk : (k : ℚ) < 2 ^ 53 := by exact_mod_cast hk
      calc (k * 2 ^ e : ℚ) < 2 ^ 53 * 2 ^ e := mul_lt_mul_of_pos_right hk (by positivity)
        _ ≤ 2 ^ 52 * 2 ^ t := two_pow_53_mul_le (not_le.mp hte)
    calc |x - r * 2 ^ t| ≤ |x - (2 ^ 52 : Int) * 2 ^ t| := h.dist_le _
      _ = x - 2 ^ 52 * 2 ^ t := by
          push_cast
          exact abs_of_nonneg (by linarith)
      _ < x - k * 2 ^ e := by linarith
      _ ≤ |x - k * 2 ^ e| := le_abs_self _

theorem OnGrid.isNearest (h : OnGrid x r t) {y : Float} {m : Nat} {e : Int}
    (hy : Decoded.ofFloat y = .finite false m e) (hvalue : (m * 2 ^ e : ℚ) = r * 2 ^ t)
    (hparity : r % 2 = 0 → m % 2 = 0) (hsmall : x < overflow) : IsNearest x y := by
  refine .finite m e hy hsmall ?_ ?_
  · intro z w hw
    obtain ⟨k, e', hk, he', rfl⟩ := Decoded.value?_eq_some hw
    rw [hvalue]
    rcases h.on_grid_or_farther hk he' with ⟨n, hn⟩ | hfar
    · rw [hn]
      exact h.dist_le n
    · exact hfar.le
  · intro z w hw hne htie
    obtain ⟨k, e', hk, he', rfl⟩ := Decoded.value?_eq_some hw
    rw [hvalue] at hne htie
    rcases h.on_grid_or_farther hk he' with ⟨n, hn⟩ | hfar
    · rw [hn] at hne htie
      have hother : n ≠ r := fun heq => hne (by rw [heq]; rfl)
      rw [scaled_dist, scaled_dist] at htie
      exact hparity (h.rounded.even_of_dist_eq hother
        (mul_right_cancel₀ (by positivity : (2 : ℚ) ^ t ≠ 0) htie))
    · exact absurd htie hfar.ne

theorem OnGrid.lt_overflow (h : OnGrid x r t) (hfits : t ≤ 970 ∨ t = 971 ∧ r < 2 ^ 53) :
    x < overflow := by
  rcases hfits with ht | ⟨rfl, hr⟩
  · calc x < 2 ^ 53 * 2 ^ t := h.upper
      _ ≤ 2 ^ 53 * 2 ^ (970 : Int) := by
          gcongr
          norm_num
      _ ≤ overflow := by
          unfold overflow
          gcongr
          norm_num
  · have hr : (r : ℚ) + 1 ≤ 2 ^ 53 := by exact_mod_cast hr
    have hnear := (abs_le.mp h.rounded.near).2
    -- at half a step above the largest double the tie would go to its odd mantissa
    have hw : x / 2 ^ (971 : Int) < 2 ^ 53 - 1 / 2 := by
      refine lt_of_le_of_ne (by linarith) fun heq => ?_
      have hlast : (r : ℚ) = (2 ^ 53 - 1 : Nat) := by
        push_cast
        linarith
      have hlast : r = 2 ^ 53 - 1 := by exact_mod_cast hlast
      have := h.rounded.even (by rw [heq, hlast]; norm_num)
      omega
    calc x < (2 ^ 53 - 1 / 2) * 2 ^ (971 : Int) := (div_lt_iff₀ (by positivity)).mp hw
      _ = overflow := overflow_eq.symm

theorem OnGrid.overflow_le (h : OnGrid x r t) (hbig : 972 ≤ t ∨ t = 971 ∧ r = 2 ^ 53) :
    overflow ≤ x := by
  rcases hbig with ht | ⟨rfl, rfl⟩
  · calc overflow ≤ 2 ^ (1024 : Int) := overflow_le_pow
      _ ≤ 2 ^ ((52 : Nat) + t) := zpow_le_zpow_right₀ one_le_two (by omega)
      _ = 2 ^ 52 * 2 ^ t := by rw [zpow_add₀ two_ne_zero, zpow_natCast]
      _ ≤ x := h.lower.resolve_left (by omega)
  · have hnear := (abs_le.mp h.rounded.near).1
    rw [Nat.cast_pow, Nat.cast_ofNat] at hnear
    calc overflow = (2 ^ 53 - 1 / 2) * 2 ^ (971 : Int) := overflow_eq
      _ ≤ x := (le_div_iff₀ (by positivity)).mp (by linarith)

/-- What is rounded on the grid and packed is the nearest double. -/
theorem Rounds.isNearest {f : Float.Model.UnpackedFloat} (h : Rounds .positive x f) :
    IsNearest x (.ofModel (Float.Model.pack f)) := by
  obtain ⟨r, t, hgrid, rfl⟩ := h
  have hle := hgrid.le
  have hfull := hgrid.full
  have hbottom := hgrid.bottom
  unfold settled
  split
  case isTrue hzero =>
    subst hzero
    refine hgrid.isNearest (m := 0) (e := -1074) rfl (by simp) (fun _ => rfl)
      (hgrid.lt_overflow (.inl (by omega)))
  case isFalse hpos =>
    split
    case isTrue hsmall =>
      have hdecoded := Decoded.ofFloat_pack (Nat.pos_of_ne_zero hpos) ⟨hsmall, hbottom, hfull⟩
      by_cases hover : 971 < t
      · rw [if_pos hover] at hdecoded
        exact .infinite hdecoded (hgrid.overflow_le (.inl (by omega)))
      · rw [if_neg hover] at hdecoded
        exact hgrid.isNearest hdecoded rfl id (hgrid.lt_overflow (by omega))
    case isFalse hbig =>
      obtain rfl : r = 2 ^ 53 := by omega
      have hdecoded := Decoded.ofFloat_pack (m := 2 ^ 52) (e := t + 1) (by decide)
        ⟨by decide, by omega, .inr (le_refl _)⟩
      by_cases hover : 971 < t + 1
      · rw [if_pos hover] at hdecoded
        exact .infinite hdecoded (hgrid.overflow_le (by omega))
      · rw [if_neg hover] at hdecoded
        refine hgrid.isNearest hdecoded ?_ (fun _ => by decide) (hgrid.lt_overflow (by omega))
        rw [zpow_add₀ two_ne_zero]
        push_cast
        ring

end Rounding
end CurveSketch
