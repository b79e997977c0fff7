import CurveSketch.Decimal.Reading
import CurveSketch.Proofs.Nearest

/-!
# CurveSketch.Proofs.Conversion

From decimals to doubles: `Scientific.toFloat` gives the double nearest to
`coefficient · 10^exponent`, whatever their size. Short coefficients with small exponents go
through one product or quotient of exact doubles, the others through the exact rational, and
decimals beyond the range of doubles on either side are settled by their number of digits alone.
-/

namespace CurveSketch
namespace Decimal

open Rounding
open Float.Model (UnpackedFloat)

def Scientific.value (s : Scientific) : ℚ :=
  s.coefficient * 10 ^ s.exponent

theorem lt_pow_digitCount (n : Nat) : n < 10 ^ digitCount n :=
  (Nat.length_toDigits_le_iff (by decide) Nat.length_toDigits_pos).mp le_rfl

theorem pow_digitCount_le {n : Nat} (hn : 0 < n) : 10 ^ (digitCount n - 1) ≤ n := by
  by_contra hlt
  have hlt : n < 10 ^ (digitCount n - 1) := by omega
  by_cases hone : digitCount n - 1 = 0
  · rw [hone] at hlt
    omega
  · have := (Nat.length_toDigits_le_iff (by decide) (Nat.pos_of_ne_zero hone)).mpr hlt
    unfold digitCount at *
    omega

theorem digitCount_le_log2 {n : Nat} (hn : 0 < n) : digitCount n ≤ n.log2 + 1 := by
  have : 2 ^ (digitCount n - 1) ≤ n :=
    (Nat.pow_le_pow_left (by decide) _).trans (pow_digitCount_le hn)
  have := (Nat.le_log2 hn.ne').mpr this
  omega

theorem digitCount_pos (n : Nat) : 0 < digitCount n :=
  Nat.length_toDigits_pos

theorem pow_1024_le : 2 ^ 1024 ≤ 10 ^ 309 := by decide +kernel

theorem pow_1076_le : 2 ^ 1076 ≤ 10 ^ 331 := by decide +kernel

theorem overflow_le_pow_ten : overflow ≤ 10 ^ 309 := by
  have hbound : ((2 ^ 1024 : Nat) : ℚ) ≤ (10 ^ 309 : Nat) := Nat.cast_le.mpr pow_1024_le
  calc overflow ≤ 2 ^ (1024 : Int) := overflow_le_pow
    _ = ((2 ^ 1024 : Nat) : ℚ) := by
        rw [Nat.cast_pow]
        rfl
    _ ≤ ((10 ^ 309 : Nat) : ℚ) := hbound
    _ = 10 ^ 309 := by
        rw [Nat.cast_pow]
        rfl

theorem isNearest_infinity {q : ℚ} (hq : (10 : ℚ) ^ 310 ≤ q) : IsNearest q infinity := by
  have hpow : (10 : ℚ) ^ 309 ≤ 10 ^ 310 := pow_le_pow_right₀ (by norm_num) (Nat.le_succ 309)
  exact .infinite (by decide) (overflow_le_pow_ten.trans (hpow.trans hq))

theorem isNearest_zero {q : ℚ} (hpos : 0 ≤ q) (hq : q ≤ 10 ^ (-331 : Int)) :
    IsNearest q (0 : Float) := by
  have hbound : ((2 ^ 1076 : Nat) : ℚ) ≤ (10 ^ 331 : Nat) := Nat.cast_le.mpr pow_1076_le
  have hquarter : q / 2 ^ (-1074 : Int) ≤ 1 / 4 := by
    rw [div_le_iff₀ (by positivity)]
    calc q ≤ (10 ^ (331 : Int))⁻¹ := by
          rw [← zpow_neg]
          exact hq
      _ ≤ (2 ^ (1076 : Int))⁻¹ := by
          apply inv_anti₀ (by positivity)
          rw [Nat.cast_pow, Nat.cast_pow] at hbound
          exact hbound
      _ = 1 / 4 * 2 ^ (-1074 : Int) := by
          rw [← zpow_neg, show (-1076 : Int) = -2 + -1074 by norm_num, zpow_add₀ two_ne_zero]
          norm_num
  have hdist : |q / 2 ^ (-1074 : Int) - (0 : Nat)| < 1 / 2 := by
    rw [Nat.cast_zero, sub_zero, abs_of_nonneg (by positivity)]
    linarith
  have hgrid : OnGrid q 0 (-1074) := by
    refine ⟨le_rfl, .inl rfl, ?_, ⟨hdist.le, fun _ => rfl⟩⟩
    rw [← div_lt_iff₀ (by positivity)]
    linarith
  exact hgrid.isNearest (m := 0) (e := -1074) (by decide) (by simp) (fun _ => rfl)
    (hgrid.lt_overflow (.inl (by omega)))

theorem powersOfTen_decoded : ∀ e : Fin Float.exactlyRepresentablePowersOfTen.size,
    Decoded.ofFloat Float.exactlyRepresentablePowersOfTen[e] =
      .finite false (5 ^ e.val * 2 ^ (52 - (5 ^ e.val).log2))
        (e.val + (5 ^ e.val).log2 - 52) := by
  decide

theorem ofScientific_rounds {c : Nat} {e : Int} (hc : 0 < c) (hlarge : e ≤ 2048)
    (hsmall : -(2048 + c.log2 : Int) ≤ e) :
    Rounds .positive (c * 10 ^ e) (UnpackedFloat.ofScientific .binary64 c e) := by
  unfold UnpackedFloat.ofScientific
  rw [dif_neg hc.ne', if_neg (by simpa using hlarge), if_neg (by simpa using hsmall)]
  split
  case isTrue hnonneg =>
    have hone : (2 : ℚ) ^ 53 * 2 ^ (-53 : Int) = 1 := by norm_num
    have hvalue : ((c <<< 53 : Nat) * 2 ^ (-53 : Int) : ℚ) *
        ((10 ^ e.toNat : Nat) * 2 ^ (0 : Int)) = c * 10 ^ e := by
      rw [Nat.shiftLeft_eq, Nat.cast_mul, Nat.cast_pow, Nat.cast_pow, ← zpow_natCast _ e.toNat,
        Int.toNat_of_nonneg hnonneg, Nat.cast_ofNat, Nat.cast_ofNat, mul_assoc (c : ℚ), hone,
        zpow_zero, mul_one, mul_one]
    rw [← hvalue]
    refine @mul_rounds .positive .positive _ _ _ _ _ _ (le_lastPlace_mul _ ?_ (by positivity))
    rw [Nat.shiftLeft_eq]
    omega
  case isFalse hneg =>
    have hvalue : (c * 2 ^ (0 : Int) : ℚ) / ((10 ^ (-e).toNat : Nat) * 2 ^ (0 : Int)) =
        c * 10 ^ e := by
      rw [Nat.cast_pow, ← zpow_natCast, Int.toNat_of_nonneg (by omega)]
      simp [zpow_neg]
    rw [← hvalue]
    exact @div_rounds .positive .positive _ _ _ _ _ _

theorem toFloat_decoded {c : Nat} (hc : 0 < c) (hshort : c < 2 ^ 53) :
    ∃ m e h, c.toUInt64.toFloat.toModel.unpack = .finite .positive m e h ∧ 2 ^ 52 ≤ m ∧
      (m * 2 ^ e : ℚ) = c := by
  obtain ⟨m, e, h, hfinite, hfull, hbits, hbottom, htop, hvalue⟩ := ofNat_finite hc hshort
  have hnat : c.toUInt64.toNat = c := by
    rw [Nat.toUInt64_eq, UInt64.toNat_ofNat', Nat.mod_eq_of_lt (by omega)]
  have hdecoded : Decoded.ofFloat c.toUInt64.toFloat = .finite false m e := by
    have hpack : c.toUInt64.toFloat =
        .ofModel (Float.Model.pack (.ofNat .binary64 c.toUInt64.toNat)) := rfl
    rw [hpack, hnat, hfinite, Decoded.ofFloat_pack h ⟨hbits, hbottom, .inr hfull⟩,
      if_neg (by omega)]
  exact ⟨m, e, h, unpack_of_decoded h hdecoded, hfull, hvalue⟩

theorem powersOfTen_unpack {k : Nat} (hk : k < Float.exactlyRepresentablePowersOfTen.size) :
    ∃ m e h, Float.exactlyRepresentablePowersOfTen[k].toModel.unpack = .finite .positive m e h ∧
      (m * 2 ^ e : ℚ) = 10 ^ k := by
  have hdecoded := powersOfTen_decoded ⟨k, hk⟩
  have hpos : 0 < 5 ^ k * 2 ^ (52 - (5 ^ k).log2) := by positivity
  refine ⟨_, _, hpos, unpack_of_decoded hpos hdecoded, ?_⟩
  have hlog : (5 ^ k).log2 ≤ 52 := by
    have hk : k ≤ 22 := Nat.le_of_lt_succ hk
    have : 5 ^ k < 2 ^ 53 := (Nat.pow_le_pow_right (by decide) hk).trans_lt (by decide)
    exact Nat.lt_add_one_iff.mp ((Nat.log2_lt (by positivity)).mpr this)
  rw [Nat.cast_mul, Nat.cast_pow, Nat.cast_pow, ← zpow_natCast _ (52 - _), mul_assoc,
    Nat.cast_ofNat, Nat.cast_ofNat, ← zpow_add₀ two_ne_zero, Nat.cast_sub hlog,
    show (10 : ℚ) = 5 * 2 by norm_num, mul_pow, ← zpow_natCast 2 k]
  congr 2
  push_cast
  ring

/-- The conversion of a decimal that is not far outside of the range of doubles. -/
theorem ofScientific_isNearest {c : Nat} {e : Int} (hc : 0 < c) (hlarge : e ≤ 2048)
    (hsmall : -(2048 + c.log2 : Int) ≤ e) :
    IsNearest (c * 10 ^ e) (Float.ofScientific c (e < 0) e.natAbs) := by
  unfold Float.ofScientific
  split
  case isTrue hfast =>
    obtain ⟨m₁, e₁, h₁, hunpack₁, hfull, hvalue₁⟩ := toFloat_decoded hc hfast.1
    obtain ⟨m₂, e₂, h₂, hunpack₂, hvalue₂⟩ := powersOfTen_unpack (Nat.lt_succ_of_le hfast.2)
    by_cases hneg : e < 0
    · have hvalue : (c * 10 ^ e : ℚ) = (m₁ * 2 ^ e₁) / (m₂ * 2 ^ e₂) := by
        rw [hvalue₁, hvalue₂, ← zpow_natCast, Int.ofNat_natAbs_of_nonpos hneg.le, zpow_neg,
          div_inv_eq_mul]
      rw [if_pos (by simpa using hneg), hvalue]
      have := (@div_rounds .positive .positive m₁ m₂ e₁ e₂ h₁ h₂).isNearest
      rwa [← hunpack₁, ← hunpack₂] at this
    · have hvalue : (c * 10 ^ e : ℚ) = (m₁ * 2 ^ e₁) * (m₂ * 2 ^ e₂) := by
        rw [hvalue₁, hvalue₂, ← zpow_natCast, Int.natAbs_of_nonneg (by omega)]
      rw [if_neg (by simpa using hneg), hvalue]
      have := (@mul_rounds .positive .positive m₁ m₂ e₁ e₂ h₁ h₂
        (le_lastPlace_mul _ hfull h₂)).isNearest
      rwa [← hunpack₁, ← hunpack₂] at this
  case isFalse hslow =>
    have hexponent :
        (if decide (e < 0) then Int.negOfNat e.natAbs else Int.ofNat e.natAbs) = e := by
      by_cases hneg : e < 0
      · rw [if_pos (by simpa using hneg), Int.negOfNat_eq, Int.ofNat_eq_natCast]
        omega
      · rw [if_neg (by simpa using hneg), Int.ofNat_eq_natCast]
        omega
    rw [hexponent]
    exact (ofScientific_rounds hc hlarge hsmall).isNearest

theorem Scientific.toFloat_isNearest (s : Scientific) : IsNearest s.value s.toFloat := by
  obtain ⟨c, e⟩ := s
  unfold Scientific.toFloat Scientific.value
  by_cases hc : c = 0
  · subst hc
    simpa using isNearest_zero le_rfl (by positivity)
  · have hpos : 0 < c := Nat.pos_of_ne_zero hc
    have hupper : (c : ℚ) < 10 ^ digitCount c := by exact_mod_cast lt_pow_digitCount c
    have hlower : (10 : ℚ) ^ (digitCount c - 1) ≤ c := by exact_mod_cast pow_digitCount_le hpos
    have hcount := digitCount_pos c
    simp only [beq_iff_eq, hc, if_false]
    split
    case isTrue htop =>
      apply isNearest_infinity
      calc (10 : ℚ) ^ 310 = 10 ^ (310 : Int) := rfl
        _ ≤ 10 ^ ((digitCount c - 1 : Nat) + e) :=
            zpow_le_zpow_right₀ (by norm_num) (by omega)
        _ = 10 ^ (digitCount c - 1) * 10 ^ e := by
            rw [zpow_add₀ (by norm_num), zpow_natCast]
        _ ≤ c * 10 ^ e := mul_le_mul_of_nonneg_right hlower (by positivity)
    case isFalse htop =>
      split
      case isTrue hbottom =>
        apply isNearest_zero (by positivity)
        calc (c * 10 ^ e : ℚ) ≤ 10 ^ digitCount c * 10 ^ e :=
              mul_le_mul_of_nonneg_right hupper.le (by positivity)
          _ = 10 ^ (digitCount c + e) := by
              rw [zpow_add₀ (by norm_num), zpow_natCast]
          _ ≤ 10 ^ (-331 : Int) := zpow_le_zpow_right₀ (by norm_num) (by omega)
      case isFalse hbottom =>
        have := digitCount_le_log2 hpos
        exact ofScientific_isNearest hpos (by omega) (by omega)

end Decimal
end CurveSketch
