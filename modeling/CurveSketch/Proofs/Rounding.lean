import CurveSketch.Decimal.Double
import Mathlib

/-!
# CurveSketch.Proofs.Rounding

What the rounding of the double arithmetic does to an exact number. The arithmetic works on a
mantissa with two residual bits; `Represents` says which rationals such a mantissa stands for, and
from it products, quotients and integers are shown to be rounded half to even on the grid of
doubles (`Rounds`).
-/

namespace CurveSketch
namespace Rounding

open Float.Model Float.Model.UnpackedFloat

/-- `r` is an integer nearest to `w`, the even one where two are equally near. -/
structure HalfEven (w : ℚ) (r : Nat) : Prop where
  near : |w - r| ≤ 1 / 2
  even : |w - r| = 1 / 2 → r % 2 = 0

theorem HalfEven.dist_other {w : ℚ} {r : Nat} (h : HalfEven w r) {n : Int} (hn : n ≠ r) :
    1 / 2 ≤ |w - n| := by
  have hgap : (1 : ℚ) ≤ |(n : ℚ) - r| := by
    have : (1 : Int) ≤ |n - r| := Int.one_le_abs (sub_ne_zero.mpr hn)
    exact_mod_cast this
  have htri : |(n : ℚ) - r| ≤ |w - n| + |w - r| := by
    have := abs_sub_le (n : ℚ) w r
    rwa [abs_sub_comm (n : ℚ) w] at this
  linarith [h.near]

theorem HalfEven.le_dist {w : ℚ} {r : Nat} (h : HalfEven w r) (n : Int) :
    |w - r| ≤ |w - n| := by
  by_cases hn : n = r
  · rw [hn]
    simp
  · exact h.near.trans (h.dist_other hn)

/-- Another integer is as near only at a tie, which the even one wins. -/
theorem HalfEven.even_of_dist_eq {w : ℚ} {r : Nat} (h : HalfEven w r) {n : Int} (hn : n ≠ r)
    (heq : |w - r| = |w - n|) : r % 2 = 0 :=
  h.even (le_antisymm h.near (heq ▸ h.dist_other hn))

theorem HalfEven.eq_of_natCast {m r : Nat} (h : HalfEven m r) : r = m := by
  have hdist := h.near
  have : |(m : Int) - r| < 1 := by
    have : |(m : ℚ) - r| < 1 := by linarith
    exact_mod_cast this
  have := Int.abs_lt_one_iff.mp this
  omega

/-- The rationals that a mantissa with its residual bits stands for. -/
def Represents (em : ExtendedMantissa) (w : ℚ) : Prop :=
  match em.roundBit, em.stickyBit with
  | false, false => w = em.mantissa
  | false, true => em.mantissa < w ∧ w < em.mantissa + 1 / 2
  | true, false => w = em.mantissa + 1 / 2
  | true, true => em.mantissa + 1 / 2 < w ∧ w < em.mantissa + 1

theorem represents_exact (m : Nat) :
    Represents (.ofMantissaAndAccuracy m .exact) m := rfl

theorem Represents.le {em : ExtendedMantissa} {w : ℚ} (h : Represents em w) :
    em.mantissa ≤ w := by
  obtain ⟨m, round, sticky⟩ := em
  cases round <;> cases sticky <;> simp only [Represents] at h <;> linarith

theorem Represents.lt {em : ExtendedMantissa} {w : ℚ} (h : Represents em w) :
    w < em.mantissa + 1 := by
  obtain ⟨m, round, sticky⟩ := em
  cases round <;> cases sticky <;> simp only [Represents] at h <;> linarith

/-- The bit shifted out becomes the round bit, and the residual bits below it are joined. -/
theorem Represents.shiftRightOne {em : ExtendedMantissa} {w : ℚ} (h : Represents em w) :
    Represents em.shiftRightOne (w / 2) := by
  obtain ⟨m, round, sticky⟩ := em
  have hm : (m : ℚ) = 2 * (m / 2 : Nat) + (m % 2 : Nat) := by
    exact_mod_cast (Nat.div_add_mod m 2).symm
  obtain hbit | hbit := Nat.mod_two_eq_zero_or_one m <;>
    cases round <;> cases sticky <;>
    simp [Represents, ExtendedMantissa.shiftRightOne, hbit, hm] at h ⊢
  case inl.false.false | inr.false.false => linarith
  all_goals constructor <;> linarith

theorem Represents.shiftRight {em : ExtendedMantissa} {w : ℚ} (h : Represents em w) (n : Nat) :
    Represents (em >>> n) (w / 2 ^ n) := by
  show Represents (n.repeat ExtendedMantissa.shiftRightOne em) _
  induction n with
  | zero => simpa [Nat.repeat] using h
  | succ n ih =>
    rw [Nat.repeat, pow_succ, ← div_div]
    exact ih.shiftRightOne

theorem Represents.roundedMantissa {em : ExtendedMantissa} {w : ℚ} (h : Represents em w) :
    HalfEven w em.roundedMantissa := by
  obtain ⟨m, round, sticky⟩ := em
  cases round <;> cases sticky <;>
    simp only [Represents, ExtendedMantissa.roundedMantissa, ExtendedMantissa.accuracy,
      Accuracy.roundToNearestEven] at h ⊢
  case false.false => exact ⟨by simp [h], by simp [h]⟩
  case false.true =>
    have hdist : |w - m| < 1 / 2 := abs_lt.mpr ⟨by linarith, by linarith⟩
    exact ⟨hdist.le, fun htie => absurd htie hdist.ne⟩
  case true.false =>
    refine ⟨?_, fun _ => by omega⟩
    obtain hm | hm := Nat.mod_two_eq_zero_or_one m <;> rw [hm, h] <;> push_cast <;>
      rw [abs_le] <;> constructor <;> linarith
  case true.true =>
    have hdist : |w - (m + 1 : Nat)| < 1 / 2 := by
      push_cast
      exact abs_lt.mpr ⟨by linarith, by linarith⟩
    exact ⟨hdist.le, fun htie => absurd htie hdist.ne⟩

theorem represents_fraction (num den : Nat) (hden : 0 < den) :
    Represents (.ofMantissaAndAccuracy (num / den) (accuracyOfFraction (num % den) den))
      (num / den : ℚ) := by
  have hpos : (0 : ℚ) < den := by exact_mod_cast hden
  have hsplit : (num : ℚ) = den * (num / den : Nat) + (num % den : Nat) := by
    exact_mod_cast (Nat.div_add_mod num den).symm
  have hval : (num / den : ℚ) = (num / den : Nat) + (num % den : Nat) / den := by
    rw [hsplit]
    field_simp
  have hlt : ((num % den : Nat) : ℚ) / den < 1 := by
    rw [div_lt_one hpos]
    exact_mod_cast Nat.mod_lt num hden
  rw [hval]
  unfold accuracyOfFraction
  split
  case isTrue hzero => simp [hzero, Represents, ExtendedMantissa.ofMantissaAndAccuracy]
  case isFalse hrest =>
    have hrest : (0 : ℚ) < (num % den : Nat) / den :=
      div_pos (by exact_mod_cast Nat.pos_of_ne_zero hrest) hpos
    -- the remainder against half of the divisor is the fraction against one half
    cases hcmp : compare (2 * (num % den)) den with
    | lt =>
      have : (2 * (num % den : Nat) : ℚ) < den := by exact_mod_cast Nat.compare_eq_lt.mp hcmp
      have : ((num % den : Nat) : ℚ) / den < 1 / 2 := by
        rw [div_lt_div_iff₀ hpos (by norm_num)]
        linarith
      simp only [Represents, ExtendedMantissa.ofMantissaAndAccuracy]
      exact ⟨by linarith, by linarith⟩
    | eq =>
      have : (2 * (num % den : Nat) : ℚ) = den := by exact_mod_cast Nat.compare_eq_eq.mp hcmp
      have : ((num % den : Nat) : ℚ) / den = 1 / 2 := by
        rw [div_eq_div_iff hpos.ne' (by norm_num)]
        linarith
      simp [Represents, ExtendedMantissa.ofMantissaAndAccuracy, this]
    | gt =>
      have : (den : ℚ) < 2 * (num % den : Nat) := by exact_mod_cast Nat.compare_eq_gt.mp hcmp
      have : 1 / 2 < ((num % den : Nat) : ℚ) / den := by
        rw [div_lt_div_iff₀ (by norm_num) hpos]
        linarith
      simp only [Represents, ExtendedMantissa.ofMantissaAndAccuracy]
      exact ⟨by linarith, by linarith⟩

/-- The exponent of the last place of a double of the size of `mantissa · 2^exponent`. -/
def lastPlace (mantissa : Nat) (exponent : Int) : Int :=
  max (mantissa.log2 + exponent - 52) (-1074)

theorem targetExponent_eq (mantissa : Nat) (exponent : Int) :
    Format.binary64.targetExponent (totalExponent mantissa exponent) =
      lastPlace mantissa exponent := by
  simp only [Format.targetExponent, totalExponent, Format.minExponent, Format.mantissaBits,
    lastPlace]
  norm_num
  congr 1
  ring

/-- `x` rounded half to even on the grid of step `2^t`, the one of the doubles at `x`. -/
structure OnGrid (x : ℚ) (r : Nat) (t : Int) : Prop where
  bottom : -1074 ≤ t
  lower : t = -1074 ∨ (2 ^ 52 : ℚ) * 2 ^ t ≤ x
  upper : x < (2 ^ 53 : ℚ) * 2 ^ t
  rounded : HalfEven (x / 2 ^ t) r

theorem two_pow_53_mul (t : Int) : (2 ^ 53 : ℚ) * 2 ^ t = 2 ^ 52 * 2 ^ (t + 1) := by
  rw [zpow_add₀ two_ne_zero]
  ring

/-- Where the step of the grid changes, all numbers with the finer step are below those with the
coarser one. -/
theorem two_pow_53_mul_le {t t' : Int} (h : t < t') : (2 ^ 53 : ℚ) * 2 ^ t ≤ 2 ^ 52 * 2 ^ t' := by
  rw [two_pow_53_mul]
  gcongr
  · norm_num
  · omega

theorem OnGrid.le {x : ℚ} {r : Nat} {t : Int} (h : OnGrid x r t) : r ≤ 2 ^ 53 := by
  have hstep : (0 : ℚ) < 2 ^ t := by positivity
  have hw : x / 2 ^ t < 2 ^ 53 := (div_lt_iff₀ hstep).mpr h.upper
  have hnear := abs_le.mp h.rounded.near
  have : (r : ℚ) < (2 ^ 53 : Nat) + 1 := by
    push_cast
    linarith [hnear.1]
  exact Nat.lt_add_one_iff.mp (by exact_mod_cast this)

theorem OnGrid.full {x : ℚ} {r : Nat} {t : Int} (h : OnGrid x r t) :
    t = -1074 ∨ 2 ^ 52 ≤ r := by
  rcases h.lower with hbottom | hlower
  · exact .inl hbottom
  · right
    have hw : 2 ^ 52 ≤ x / 2 ^ t := (le_div_iff₀ (by positivity)).mpr hlower
    have hnear := abs_le.mp h.rounded.near
    have : ((2 ^ 52 : Nat) : ℚ) < r + 1 := by
      push_cast
      linarith [hnear.2]
    exact Nat.lt_add_one_iff.mp (by exact_mod_cast this)

/-- The unpacked double of `r` steps `2^t`; one that fills 54 bits is written with a step twice
as wide. -/
def settled (sign : Sign) (r : Nat) (t : Int) : UnpackedFloat :=
  if h : r = 0 then .zero sign
  else if r < 2 ^ 53 then .finite sign r t (Nat.pos_of_ne_zero h)
  else .finite sign (2 ^ 52) (t + 1) (by decide)

/-- The unpacked double is `x` rounded half to even on the grid of doubles, that of an unbounded
exponent. -/
def Rounds (sign : Sign) (x : ℚ) (f : UnpackedFloat) : Prop :=
  ∃ r t, OnGrid x r t ∧ f = settled sign r t

theorem shiftToTargetExponent_eq {m : Nat} {e : Int} (accuracy : Accuracy)
    (he : e ≤ lastPlace m e) :
    shiftToTargetExponent .binary64 m e accuracy =
      (ExtendedMantissa.ofMantissaAndAccuracy m accuracy >>> (lastPlace m e - e).toNat,
        lastPlace m e) := by
  unfold shiftToTargetExponent shiftToExponent
  simp only [targetExponent_eq]
  congr 1
  omega

theorem shiftToTargetExponent_settled {r : Nat} {t : Int} (hr : r ≤ 2 ^ 53) (ht : -1074 ≤ t) :
    shiftToTargetExponent .binary64 r t .exact =
      if r < 2 ^ 53 then (⟨r, false, false⟩, t) else (⟨2 ^ 52, false, false⟩, t + 1) := by
  unfold shiftToTargetExponent shiftToExponent
  simp only [targetExponent_eq]
  split
  case isTrue hlt =>
    have hlog : r.log2 ≤ 52 := by
      by_cases h0 : r = 0
      · simp [h0]
      · exact Nat.lt_add_one_iff.mp ((Nat.log2_lt h0).mpr hlt)
    have : (lastPlace r t - t).toNat = 0 := by
      unfold lastPlace
      omega
    rw [this]
    simp [ExtendedMantissa.ofMantissaAndAccuracy, HShiftRight.hShiftRight, Nat.repeat]
  case isFalse hge =>
    have hr : r = 2 ^ 53 := by omega
    have : (lastPlace r t - t).toNat = 1 := by
      rw [hr]
      unfold lastPlace
      rw [Nat.log2_two_pow]
      omega
    rw [this, hr]
    simp [ExtendedMantissa.ofMantissaAndAccuracy, HShiftRight.hShiftRight, Nat.repeat,
      ExtendedMantissa.shiftRightOne]

theorem mantissa_ofMantissaAndAccuracy (m : Nat) (accuracy : Accuracy) :
    (ExtendedMantissa.ofMantissaAndAccuracy m accuracy).mantissa = m := by
  unfold ExtendedMantissa.ofMantissaAndAccuracy
  split <;> rfl

theorem onGrid_of_mem {x : ℚ} {m r : Nat} {e : Int} (he : e ≤ lastPlace m e)
    (hlower : m * (2 : ℚ) ^ e ≤ x) (hupper : x < (m + 1) * (2 : ℚ) ^ e)
    (hr : HalfEven (x / 2 ^ lastPlace m e) r) : OnGrid x r (lastPlace m e) := by
  refine ⟨le_max_right _ _, ?lower, ?upper, hr⟩
  case lower =>
    by_cases hm : m = 0
    · left
      rw [hm, lastPlace, Nat.log2_zero] at he ⊢
      omega
    · by_cases hbottom : lastPlace m e = -1074
      · exact .inl hbottom
      · right
        have htop : lastPlace m e = m.log2 + e - 52 := by
          unfold lastPlace at hbottom ⊢
          omega
        have hlog : (2 ^ m.log2 : ℚ) ≤ m := by exact_mod_cast Nat.log2_self_le hm
        calc (2 ^ 52 : ℚ) * 2 ^ lastPlace m e = 2 ^ m.log2 * 2 ^ e := by
              rw [htop, ← zpow_natCast, ← zpow_natCast, ← zpow_add₀ two_ne_zero,
                ← zpow_add₀ two_ne_zero]
              congr 1
              push_cast
              ring
          _ ≤ m * 2 ^ e := by gcongr
          _ ≤ x := hlower
  case upper =>
    have hlog : (m + 1 : ℚ) ≤ 2 ^ (m.log2 + 1) := by exact_mod_cast Nat.lt_log2_self
    calc x < (m + 1) * (2 : ℚ) ^ e := hupper
      _ ≤ 2 ^ (m.log2 + 1) * 2 ^ e := by gcongr
      _ = (2 : ℚ) ^ ((m.log2 : Int) + 1 + e) := by
          rw [← zpow_natCast, ← zpow_add₀ two_ne_zero]
          push_cast
          rfl
      _ ≤ 2 ^ ((53 : Int) + lastPlace m e) := by
          apply zpow_le_zpow_right₀ (by norm_num)
          unfold lastPlace
          omega
      _ = (2 ^ 53 : ℚ) * 2 ^ lastPlace m e := by
          rw [zpow_add₀ two_ne_zero]
          rfl

/-- A mantissa that is fine enough for the number it stands for is rounded on the grid. -/
theorem roundWithAccuracy_rounds {x : ℚ} {m : Nat} {e : Int} {accuracy : Accuracy} (sign : Sign)
    (hx : Represents (.ofMantissaAndAccuracy m accuracy) (x / 2 ^ e))
    (he : e ≤ lastPlace m e) :
    Rounds sign x (roundWithAccuracy .binary64 sign m e accuracy) := by
  have hpow : (0 : ℚ) < 2 ^ e := by positivity
  have hlower : m * (2 : ℚ) ^ e ≤ x := by
    have := hx.le
    rwa [mantissa_ofMantissaAndAccuracy, le_div_iff₀ hpow] at this
  have hupper : x < (m + 1) * (2 : ℚ) ^ e := by
    have := hx.lt
    rwa [mantissa_ofMantissaAndAccuracy, div_lt_iff₀ hpow] at this
  have hshift : e + ((lastPlace m e - e).toNat : Int) = lastPlace m e := by omega
  have hem := hx.shiftRight (lastPlace m e - e).toNat
  rw [div_div, ← zpow_natCast, ← zpow_add₀ two_ne_zero, hshift] at hem
  have hgrid := onGrid_of_mem he hlower hupper hem.roundedMantissa
  refine ⟨_, _, hgrid, ?_⟩
  -- the first shift goes to the last place, the second takes back a 54th bit
  unfold roundWithAccuracy
  simp only [shiftToTargetExponent_eq accuracy he,
    shiftToTargetExponent_settled hgrid.le hgrid.bottom]
  unfold settled
  split
  case isTrue hsmall => rfl
  case isFalse hbig =>
    have : (ExtendedMantissa.ofMantissaAndAccuracy m accuracy >>>
        (lastPlace m e - e).toNat).roundedMantissa ≠ 0 := by omega
    simp [this]

theorem le_lastPlace {m : Nat} {e : Int} (hm : 2 ^ 52 ≤ m) : e ≤ lastPlace m e := by
  have : 52 ≤ m.log2 := (Nat.le_log2 (by omega)).mpr hm
  unfold lastPlace
  omega

theorem le_lastPlace_mul {m₁ m₂ : Nat} (e : Int) (hm : 2 ^ 52 ≤ m₁) (h₂ : 0 < m₂) :
    e ≤ lastPlace (m₁ * m₂) e :=
  le_lastPlace (hm.trans (Nat.le_mul_of_pos_right _ h₂))

theorem mul_rounds {s₁ s₂ : Sign} {m₁ m₂ : Nat} {e₁ e₂ : Int} {h₁ : 0 < m₁} {h₂ : 0 < m₂}
    (hfine : e₁ + e₂ ≤ lastPlace (m₁ * m₂) (e₁ + e₂)) :
    Rounds (s₁ * s₂) ((m₁ * 2 ^ e₁) * (m₂ * 2 ^ e₂))
      (UnpackedFloat.mul .binary64 (.finite s₁ m₁ e₁ h₁) (.finite s₂ m₂ e₂ h₂)) := by
  have hvalue : (m₁ * 2 ^ e₁) * (m₂ * 2 ^ e₂) / 2 ^ (e₁ + e₂) = ((m₁ * m₂ : Nat) : ℚ) := by
    rw [zpow_add₀ two_ne_zero]
    push_cast
    field_simp
  apply roundWithAccuracy_rounds
  · rw [hvalue]
    exact represents_exact _
  · exact hfine

theorem divCore_fine {m₁ m₂ : Nat} {e₁ e₂ : Int} (h₁ : 0 < m₁) (h₂ : 0 < m₂) :
    (divCore .binary64 m₁ e₁ m₂ e₂).2.1 ≤
      lastPlace (divCore .binary64 m₁ e₁ m₂ e₂).1 (divCore .binary64 m₁ e₁ m₂ e₂).2.1 := by
  simp only [divCore]
  generalize hfine : min (e₁ - e₂) (Format.binary64.targetExponent
    (totalExponent m₁ e₁ - totalExponent m₂ e₂)) = t
  by_cases ht : t ≤ -1074
  · unfold lastPlace
    omega
  · -- above the bottom the step was made fine enough for 53 bits of the quotient
    have hshift : m₂.log2 + 53 ≤ m₁.log2 + (e₁ - e₂ - t).toNat := by
      simp only [Format.targetExponent, totalExponent, Format.minExponent,
        Format.mantissaBits] at hfine
      norm_num at hfine
      omega
    apply le_lastPlace
    rw [Nat.le_div_iff_mul_le h₂, Nat.shiftLeft_eq]
    calc 2 ^ 52 * m₂ ≤ 2 ^ 52 * 2 ^ (m₂.log2 + 1) :=
          Nat.mul_le_mul_left _ Nat.lt_log2_self.le
      _ = 2 ^ (m₂.log2 + 53) := by ring
      _ ≤ 2 ^ (m₁.log2 + (e₁ - e₂ - t).toNat) := Nat.pow_le_pow_right (by decide) hshift
      _ = 2 ^ m₁.log2 * 2 ^ (e₁ - e₂ - t).toNat := by ring
      _ ≤ m₁ * 2 ^ (e₁ - e₂ - t).toNat := Nat.mul_le_mul_right _ (Nat.log2_self_le h₁.ne')

theorem div_rounds {s₁ s₂ : Sign} {m₁ m₂ : Nat} {e₁ e₂ : Int} {h₁ : 0 < m₁} {h₂ : 0 < m₂} :
    Rounds (s₁ / s₂) ((m₁ * 2 ^ e₁) / (m₂ * 2 ^ e₂))
      (UnpackedFloat.div .binary64 (.finite s₁ m₁ e₁ h₁) (.finite s₂ m₂ e₂ h₂)) := by
  have hfine := @divCore_fine m₁ m₂ e₁ e₂ h₁ h₂
  simp only [divCore] at hfine
  simp only [UnpackedFloat.div, divCore]
  generalize ht : min (e₁ - e₂) (Format.binary64.targetExponent
    (totalExponent m₁ e₁ - totalExponent m₂ e₂)) = t at hfine ⊢
  have hle : t ≤ e₁ - e₂ := by omega
  have hvalue : (m₁ * 2 ^ e₁) / (m₂ * 2 ^ e₂) / 2 ^ t =
      ((m₁ <<< (e₁ - e₂ - t).toNat : Nat) / m₂ : ℚ) := by
    have hshift : (2 : ℚ) ^ (e₁ - e₂ - t).toNat = 2 ^ e₁ / 2 ^ e₂ / 2 ^ t := by
      rw [← zpow_natCast, Int.toNat_of_nonneg (by omega), zpow_sub₀ two_ne_zero,
        zpow_sub₀ two_ne_zero]
    rw [Nat.shiftLeft_eq]
    push_cast
    rw [hshift]
    field_simp
  apply roundWithAccuracy_rounds
  · rw [hvalue]
    exact represents_fraction _ _ h₂
  · exact hfine

theorem onGrid_natCast {n r : Nat} {t : Int} (hpos : 0 < n) (hn : n < 2 ^ 53)
    (h : OnGrid n r t) : t ≤ 0 ∧ 2 ^ 52 ≤ r ∧ r < 2 ^ 53 ∧ (r * 2 ^ t : ℚ) = n := by
  have hstep : (0 : ℚ) < 2 ^ t := by positivity
  have ht : t ≤ 0 := by
    rcases h.lower with hbottom | hlower
    · omega
    · have : (2 : ℚ) ^ t < 2 ^ (1 : Int) := by
        have : (n : ℚ) < 2 ^ 53 := by exact_mod_cast hn
        rw [zpow_one]
        linarith
      have := (zpow_lt_zpow_iff_right₀ one_lt_two).mp this
      omega
  have hwhole : (n : ℚ) / 2 ^ t = (n * 2 ^ (-t).toNat : Nat) := by
    push_cast
    rw [← zpow_natCast, Int.toNat_of_nonneg (by omega), zpow_neg, div_eq_mul_inv]
  have hr : (r * 2 ^ t : ℚ) = n := by
    have := (hwhole ▸ h.rounded).eq_of_natCast
    rw [this, ← hwhole, div_mul_cancel₀ _ hstep.ne']
  refine ⟨ht, ?_, ?_, hr⟩
  · rcases h.full with hbottom | hfull
    · have hone : (1 : ℚ) ≤ n := by exact_mod_cast hpos
      have : (2 ^ 52 : ℚ) ≤ r := by
        rw [eq_div_of_mul_eq hstep.ne' hr, le_div_iff₀ hstep, hbottom, ← zpow_natCast,
          ← zpow_add₀ two_ne_zero]
        exact (zpow_le_one_of_nonpos₀ one_le_two (by norm_num)).trans hone
      exact_mod_cast this
    · exact hfull
  · have : (r : ℚ) < 2 ^ 53 := lt_of_mul_lt_mul_right (hr ▸ h.upper) hstep.le
    exact_mod_cast this

theorem log2_shiftLeft {m : Nat} (hm : 0 < m) (k : Nat) : (m <<< k).log2 = m.log2 + k := by
  rw [Nat.shiftLeft_eq]
  induction k with
  | zero => simp
  | succ k ih =>
    rw [pow_succ, ← mul_assoc, mul_comm, Nat.log2_two_mul (by positivity), ih, add_assoc]

/-- A number whose places are too coarse is first written with finer ones, which loses nothing. -/
theorem round_rounds {m : Nat} (sign : Sign) (hm : 0 < m) (e : Int) :
    Rounds sign (m * 2 ^ e) (UnpackedFloat.round .binary64 sign m e) := by
  simp only [UnpackedFloat.round, targetExponent_eq, decreaseExponent]
  generalize hk : (e - lastPlace m e).toNat = k
  apply roundWithAccuracy_rounds
  · have hvalue : (m * 2 ^ e : ℚ) / 2 ^ (e - k) = (m <<< k : Nat) := by
      rw [Nat.shiftLeft_eq, Nat.cast_mul, Nat.cast_pow, mul_div_assoc, ← zpow_sub₀ two_ne_zero,
        sub_sub_cancel, zpow_natCast, Nat.cast_ofNat]
    rw [hvalue]
    exact represents_exact _
  · unfold lastPlace at hk ⊢
    rw [log2_shiftLeft hm]
    omega

theorem ofNat_finite {n : Nat} (hpos : 0 < n) (hn : n < 2 ^ 53) :
    ∃ m e h, UnpackedFloat.ofNat .binary64 n = .finite .positive m e h ∧
      2 ^ 52 ≤ m ∧ m < 2 ^ 53 ∧ -1074 ≤ e ∧ e ≤ 0 ∧ (m * 2 ^ e : ℚ) = n := by
  have hcmp : compare (n : Int) 0 = .gt := Int.compare_eq_gt.mpr (by omega)
  obtain ⟨r, t, hgrid, hround⟩ : Rounds .positive n (UnpackedFloat.ofNat .binary64 n) := by
    simp only [UnpackedFloat.ofNat, UnpackedFloat.ofInt, UnpackedFloat.normalize, hcmp,
      Int.toNat_natCast]
    simpa using round_rounds .positive hpos 0
  obtain ⟨ht, hlow, hhigh, hvalue⟩ := onGrid_natCast hpos hn hgrid
  refine ⟨r, t, by omega, ?_, hlow, hhigh, hgrid.bottom, ht, hvalue⟩
  rw [hround, settled, dif_neg (by omega), if_pos hhigh]

end Rounding
end CurveSketch
