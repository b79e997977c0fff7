import CurveSketch.Decimal.Layout
import CurveSketch.Proofs.Difference

/-!
# CurveSketch.Proofs.Significant

Rounding to a set number of digits. The leading exponent of a fraction is the one of its first digit
(`leadingExponent_spec`), so the rounded coefficient has exactly as many digits as are asked for
(`significant_digits`), and a fraction that is close enough to a number of that many digits is
rounded to that number, from above and from below (`significant_eq`). The double nearest to a
decimal that is not too small is that close to it (`IsNearest.value_near`).
-/

namespace CurveSketch

theorem Rounding.HalfEven.eq_of_near {w : ℚ} {r c : Nat} (h : HalfEven w r) (hc : |w - c| < 1 / 2) :
    r = c := by
  have hdist : |(r : ℚ) - c| < 1 := by
    calc |(r : ℚ) - c| ≤ |(r : ℚ) - w| + |w - c| := abs_sub_le _ _ _
      _ < 1 / 2 + 1 / 2 := by
        have := h.near
        rw [abs_sub_comm] at this
        linarith
      _ = 1 := by norm_num
  have : |(r : Int) - c| < 1 := by exact_mod_cast hdist
  have := Int.abs_lt_one_iff.mp this
  omega

namespace Decimal

open Rounding

/-! ### The leading exponent -/

theorem leadingExponent_spec {num den : Nat} (hnum : 0 < num) (hden : 0 < den) :
    (10 : ℚ) ^ leadingExponent num den ≤ num / den ∧
      (num / den : ℚ) < 10 ^ (leadingExponent num den + 1) := by
  have hden' : (0 : ℚ) < den := by exact_mod_cast hden
  have hnum' : (0 : ℚ) < num := by exact_mod_cast hnum
  unfold leadingExponent
  split
  case isTrue hle =>
    -- the digits of the whole part count the places in front of the point
    have hpos : 0 < num / den := Nat.div_pos hle hden
    have hcount := digitCount_pos (num / den)
    have hlow : 10 ^ (digitCount (num / den) - 1) * den ≤ num :=
      (Nat.le_div_iff_mul_le hden).mp (pow_digitCount_le hpos)
    have hhigh : num < 10 ^ digitCount (num / den) * den :=
      (Nat.div_lt_iff_lt_mul hden).mp (lt_pow_digitCount (num / den))
    have hexponent : (digitCount (num / den) : Int) - 1 = (digitCount (num / den) - 1 : Nat) := by
      omega
    rw [sub_add_cancel, hexponent, zpow_natCast, zpow_natCast, le_div_iff₀ hden',
      div_lt_iff₀ hden']
    exact ⟨by exact_mod_cast hlow, by exact_mod_cast hhigh⟩
  case isFalse hlt =>
    -- below 1 the digits of the inverse count the places behind the point
    have hpos : 0 < (den - 1) / num := Nat.div_pos (by omega) hnum
    have hcount := digitCount_pos ((den - 1) / num)
    have hlow : 10 ^ (digitCount ((den - 1) / num) - 1) * num ≤ den - 1 :=
      (Nat.le_div_iff_mul_le hnum).mp (pow_digitCount_le hpos)
    have hhigh : den - 1 < 10 ^ digitCount ((den - 1) / num) * num :=
      (Nat.div_lt_iff_lt_mul hnum).mp (lt_pow_digitCount ((den - 1) / num))
    have hexponent : -(digitCount ((den - 1) / num) : Int) + 1 =
        -(digitCount ((den - 1) / num) - 1 : Nat) := by
      omega
    rw [hexponent, zpow_neg, zpow_neg, zpow_natCast, zpow_natCast]
    constructor
    · rw [inv_le_comm₀ (by positivity) (by positivity), inv_div, div_le_iff₀ hnum']
      exact_mod_cast (by omega : den ≤ 10 ^ digitCount ((den - 1) / num) * num)
    · rw [lt_inv_comm₀ (by positivity) (by positivity), inv_div, lt_div_iff₀ hnum']
      exact_mod_cast (by omega : 10 ^ (digitCount ((den - 1) / num) - 1) * num < den)

theorem leadingExponent_eq {num den : Nat} (hnum : 0 < num) (hden : 0 < den) {k : Int}
    (hlow : (10 : ℚ) ^ k ≤ num / den) (hhigh : (num / den : ℚ) < 10 ^ (k + 1)) :
    leadingExponent num den = k := by
  obtain ⟨hlow', hhigh'⟩ := leadingExponent_spec hnum hden
  have hten : (1 : ℚ) < 10 := by norm_num
  have hle := (zpow_lt_zpow_iff_right₀ hten).mp (hlow.trans_lt hhigh')
  have hge := (zpow_lt_zpow_iff_right₀ hten).mp (hlow'.trans_lt hhigh)
  omega

/-! ### Rounding in units of a power of ten -/

theorem inUnits_value (num : Nat) {den : Nat} (hden : 0 < den) (e : Int) :
    0 < (inUnits num den e).2 ∧
      ((inUnits num den e).1 / (inUnits num den e).2 : ℚ) = num / den / 10 ^ e := by
  unfold inUnits
  split
  case isTrue hneg =>
    refine ⟨hden, ?_⟩
    have hpow : (10 : ℚ) ^ e = (10 ^ e.natAbs)⁻¹ := by
      rw [← zpow_natCast, ← zpow_neg]
      congr 1
      omega
    rw [hpow, div_inv_eq_mul]
    push_cast [Nat.pow_eq]
    ring
  case isFalse hnonneg =>
    refine ⟨Nat.mul_pos hden (Nat.pow_pos (by decide)), ?_⟩
    have hpow : (10 : ℚ) ^ e = 10 ^ e.natAbs := by
      rw [← zpow_natCast]
      congr 1
      omega
    rw [hpow, div_div]
    push_cast [Nat.pow_eq]
    rfl

theorem roundHalfEven_halfEven (num : Nat) {den : Nat} (hden : 0 < den) :
    HalfEven (num / den) (roundHalfEven num den) := by
  have hden' : (0 : ℚ) < den := by exact_mod_cast hden
  have hvalue : (num / den : ℚ) = (num / den : Nat) + ((num % den : Nat) : ℚ) / den := by
    have hsplit : (num : ℚ) = den * (num / den : Nat) + (num % den : Nat) := by
      exact_mod_cast (Nat.div_add_mod num den).symm
    rw [hsplit]
    field_simp
  have hlow : 0 ≤ ((num % den : Nat) : ℚ) / den := by positivity
  have hhigh : ((num % den : Nat) : ℚ) / den < 1 := by
    rw [div_lt_one hden']
    exact_mod_cast Nat.mod_lt num hden
  have hhalf : 2 * (((num % den : Nat) : ℚ) / den) = (2 * (num % den) : Nat) / den := by
    push_cast
    ring
  rw [hvalue]
  generalize ((num % den : Nat) : ℚ) / den = rest at *
  unfold roundHalfEven
  simp only
  split
  case isTrue hsmall =>
    have : 2 * rest < 1 := by
      rw [hhalf, div_lt_one hden']
      exact_mod_cast hsmall
    refine ⟨?_, ?_⟩
    · rw [add_sub_cancel_left, abs_of_nonneg hlow]
      linarith
    · rw [add_sub_cancel_left, abs_of_nonneg hlow]
      intro htie
      linarith
  case isFalse hsmall =>
    split
    case isTrue hlarge =>
      have : 1 < 2 * rest := by
        rw [hhalf, one_lt_div hden']
        exact_mod_cast hlarge
      have habs : |((num / den : Nat) : ℚ) + rest - (num / den + 1 : Nat)| = 1 - rest := by
        push_cast
        rw [abs_of_neg (by linarith)]
        ring
      exact ⟨by rw [habs]; linarith, by rw [habs]; intro htie; linarith⟩
    case isFalse hlarge =>
      have htie : rest = 1 / 2 := by
        have : 2 * (num % den) = den := by omega
        have : 2 * rest = 1 := by rw [hhalf, this, div_self hden'.ne']
        linarith
      rw [htie]
      split
      case isTrue heven =>
        rw [beq_iff_eq] at heven
        exact ⟨by rw [add_sub_cancel_left, abs_of_pos (by norm_num)], fun _ => heven⟩
      case isFalse hodd =>
        rw [beq_iff_eq] at hodd
        refine ⟨?_, fun _ => by omega⟩
        push_cast
        rw [abs_of_neg (by linarith)]
        linarith

/-! ### Significant digits -/

section Significant

variable {count num den : Nat}

theorem inUnits_bounds (hcount : 0 < count) (hnum : 0 < num) (hden : 0 < den) :
    (10 : ℚ) ^ (count - 1) ≤ num / den / 10 ^ (leadingExponent num den - count + 1) ∧
      (num / den : ℚ) / 10 ^ (leadingExponent num den - count + 1) < 10 ^ count := by
  obtain ⟨hlow, hhigh⟩ := leadingExponent_spec hnum hden
  rw [le_div_iff₀ (by positivity), div_lt_iff₀ (by positivity), ← zpow_natCast, ← zpow_natCast,
    ← zpow_add₀ (by norm_num), ← zpow_add₀ (by norm_num)]
  have hfirst : ((count - 1 : Nat) : Int) + (leadingExponent num den - count + 1) =
      leadingExponent num den := by
    omega
  have hnext : (count : Int) + (leadingExponent num den - count + 1) =
      leadingExponent num den + 1 := by
    omega
  rw [hfirst, hnext]
  exact ⟨hlow, hhigh⟩

theorem significant_digits (hcount : 0 < count) (hnum : 0 < num) (hden : 0 < den) :
    10 ^ (count - 1) ≤ (significant count num den).coefficient ∧
      (significant count num den).coefficient < 10 ^ count := by
  obtain ⟨hlow, hhigh⟩ := inUnits_bounds hcount hnum hden
  obtain ⟨hd, hvalue⟩ := inUnits_value num hden (leadingExponent num den - count + 1)
  have hround := (roundHalfEven_halfEven
    (inUnits num den (leadingExponent num den - count + 1)).1 hd).near
  rw [hvalue] at hround
  unfold significant
  simp only
  generalize (num / den : ℚ) / 10 ^ (leadingExponent num den - count + 1) = w at hlow hhigh hround
  generalize roundHalfEven (inUnits num den (leadingExponent num den - count + 1)).1
    (inUnits num den (leadingExponent num den - count + 1)).2 = r at hround ⊢
  obtain ⟨hbelow, habove⟩ := abs_le.mp hround
  have hlow' : 10 ^ (count - 1) ≤ r := by
    have : ((10 ^ (count - 1) : Nat) : ℚ) < r + 1 := by
      push_cast
      linarith
    exact Nat.lt_add_one_iff.mp (by exact_mod_cast this)
  have hhigh' : r ≤ 10 ^ count := by
    have : (r : ℚ) < (10 ^ count : Nat) + 1 := by
      push_cast
      linarith
    exact Nat.lt_add_one_iff.mp (by exact_mod_cast this)
  have hpow : 10 ^ (count - 1) < 10 ^ count := Nat.pow_lt_pow_right (by decide) (by omega)
  split
  case isTrue => exact ⟨le_rfl, hpow⟩
  case isFalse hne =>
    rw [beq_iff_eq, Nat.pow_eq] at hne
    exact ⟨hlow', lt_of_le_of_ne hhigh' hne⟩

/-- A fraction near a number of that many digits is rounded to it. Below a power of ten the digits
are ten times as fine, which is why the bound is a tenth of a half. -/
theorem significant_eq {c : Nat} {e : Int} (hcount : 0 < count) (hnum : 0 < num) (hden : 0 < den)
    (hlow : 10 ^ (count - 1) ≤ c) (hhigh : c < 10 ^ count)
    (hnear : |(num / den : ℚ) / 10 ^ e - c| < 1 / 20) : significant count num den = ⟨c, e⟩ := by
  obtain ⟨hbelow, habove⟩ := abs_lt.mp hnear
  have hlow' : (10 : ℚ) ^ (count - 1) ≤ c := by exact_mod_cast hlow
  have hhigh' : (c : ℚ) + 1 ≤ 10 ^ count := by exact_mod_cast hhigh
  have hten : (10 : ℚ) ^ count = 10 * 10 ^ (count - 1) := by
    rw [← pow_succ', Nat.sub_add_cancel hcount]
  have hone : (1 : ℚ) ≤ 10 ^ (count - 1) := one_le_pow₀ (by norm_num)
  -- the leading exponent in terms of the size in units of `10^e`
  have hscale : ∀ k : Nat, (10 : ℚ) ^ k * 10 ^ e = 10 ^ (k + e) := by
    intro k
    rw [zpow_add₀ (by norm_num), zpow_natCast]
  have hcast : ((count - 1 : Nat) : Int) = count - 1 := by omega
  by_cases hsize : (10 : ℚ) ^ (count - 1) ≤ num / den / 10 ^ e
  · have hleading : leadingExponent num den = (count - 1 : Nat) + e := by
      refine leadingExponent_eq hnum hden ?_ ?_
      · rwa [le_div_iff₀ (by positivity), hscale] at hsize
      · have : (num / den : ℚ) / 10 ^ e < 10 ^ count := by linarith
        rw [div_lt_iff₀ (by positivity), hscale] at this
        rwa [add_right_comm, hcast, sub_add_cancel]
    have hexponent : leadingExponent num den - count + 1 = e := by omega
    obtain ⟨hd, hvalue⟩ := inUnits_value num hden e
    have hround := roundHalfEven_halfEven (inUnits num den e).1 hd
    rw [hvalue] at hround
    have hr := hround.eq_of_near (hnear.trans (by norm_num))
    have hne : ¬ (c == Nat.pow 10 count) = true := by
      rw [beq_iff_eq, Nat.pow_eq]
      omega
    unfold significant
    simp only [hexponent, hr]
    rw [if_neg hne]
  · -- the fraction is below the least number of that many digits, which is the one it is near to
    have hsize : (num / den : ℚ) / 10 ^ e < 10 ^ (count - 1) := not_le.mp hsize
    have hc : c = 10 ^ (count - 1) := by
      have : (c : ℚ) < (10 ^ (count - 1) : Nat) + 1 := by
        push_cast
        linarith
      have : c < 10 ^ (count - 1) + 1 := by exact_mod_cast this
      omega
    have hleading : leadingExponent num den = (count - 1 : Nat) + (e - 1) := by
      refine leadingExponent_eq hnum hden ?_ ?_
      · calc (10 : ℚ) ^ (((count - 1 : Nat) : Int) + (e - 1)) = 10 ^ (count - 1) / 10 * 10 ^ e := by
              rw [← add_sub_assoc, zpow_sub_one₀ (by norm_num), ← hscale]
              ring
          _ ≤ num / den / 10 ^ e * 10 ^ e :=
              mul_le_mul_of_nonneg_right (by linarith) (by positivity)
          _ = num / den := div_mul_cancel₀ _ (by positivity)
      · rw [div_lt_iff₀ (by positivity), hscale] at hsize
        rwa [add_assoc, sub_add_cancel]
    have hexponent : leadingExponent num den - count + 1 = e - 1 := by omega
    obtain ⟨hd, hvalue⟩ := inUnits_value num hden (e - 1)
    have hround := roundHalfEven_halfEven (inUnits num den (e - 1)).1 hd
    have hfine : (num / den : ℚ) / 10 ^ (e - 1) = 10 * (num / den / 10 ^ e) := by
      rw [zpow_sub_one₀ (by norm_num)]
      field_simp
    rw [hvalue, hfine] at hround
    have hr : roundHalfEven (inUnits num den (e - 1)).1 (inUnits num den (e - 1)).2 =
        10 ^ count := by
      refine hround.eq_of_near ?_
      push_cast
      rw [abs_lt]
      have : (c : ℚ) = 10 ^ (count - 1) := by exact_mod_cast hc
      constructor <;> linarith
    unfold significant
    simp only [hexponent, hr]
    rw [if_pos (by rw [beq_iff_eq, Nat.pow_eq]), hc, sub_add_cancel]
    rfl

end Significant

/-! ### The double nearest to a decimal -/

theorem exists_value_of_onGrid {q : ℚ} {r : Nat} {t : Int} (h : OnGrid q r t) (ht : t ≤ 970) :
    ∃ y, (Decoded.ofFloat y).value? = some ((r : ℚ) * 2 ^ t) := by
  have hle := h.le
  have hbottom := h.bottom
  by_cases hzero : r = 0
  · refine ⟨0, ?_⟩
    rw [hzero, show Decoded.ofFloat 0 = .finite false 0 (-1074) from rfl]
    simp [Decoded.value?]
  · by_cases hsmall : r < 2 ^ 53
    · have hdecoded := Decoded.ofFloat_pack (Nat.pos_of_ne_zero hzero) ⟨hsmall, hbottom, h.full⟩
      rw [if_neg (by omega)] at hdecoded
      exact ⟨_, by rw [hdecoded]; rfl⟩
    · obtain rfl : r = 2 ^ 53 := by omega
      have hdecoded := Decoded.ofFloat_pack (m := 2 ^ 52) (e := t + 1) (by decide)
        ⟨by decide, by omega, .inr (le_refl _)⟩
      rw [if_neg (by omega)] at hdecoded
      have hvalue : ((2 ^ 52 : Nat) : ℚ) * 2 ^ (t + 1) = (2 ^ 53 : Nat) * 2 ^ t := by
        rw [zpow_add₀ two_ne_zero]
        push_cast
        ring
      exact ⟨_, by rw [hdecoded, ← hvalue]; rfl⟩

theorem IsNearest.value_near {c : Nat} {e : Int} {y : Float} (h : IsNearest (c * 10 ^ e) y)
    (hc : 0 < c) (he : -2048 ≤ e) (he' : e ≤ 2048) (hlow : (2 : ℚ) ^ (-1021 : Int) ≤ c * 10 ^ e)
    (hhigh : (c * 10 ^ e : ℚ) < 2 ^ (1022 : Int)) :
    ∃ m k, Decoded.ofFloat y = .finite false m k ∧
      |(c * 10 ^ e : ℚ) - m * 2 ^ k| ≤ c * 10 ^ e / 2 ^ 53 := by
  obtain ⟨r, t, hgrid, -⟩ := ofScientific_rounds hc he' (by omega)
  generalize (c * 10 ^ e : ℚ) = q at h hlow hhigh hgrid
  have hnormal : (2 : ℚ) ^ 52 * 2 ^ t ≤ q := by
    refine hgrid.lower.resolve_left fun ht => ?_
    have hupper := hgrid.upper
    rw [ht, ← zpow_natCast, ← zpow_add₀ two_ne_zero] at hupper
    exact absurd hlow (not_le.mpr hupper)
  have ht : t ≤ 970 := by
    by_contra hlarge
    have : (2 : ℚ) ^ (1022 : Int) ≤ 2 ^ 52 * 2 ^ t := by
      rw [← zpow_natCast, ← zpow_add₀ two_ne_zero]
      exact zpow_le_zpow_right₀ one_le_two (by push_cast; omega)
    exact absurd (hhigh.trans_le this) (not_lt.mpr hnormal)
  obtain ⟨z, hz⟩ := exists_value_of_onGrid hgrid ht
  cases h with
  | infinite decoded large => exact absurd (hgrid.lt_overflow (.inl ht)) (not_lt.mpr large)
  | finite m k decoded small least even =>
    refine ⟨m, k, decoded, ?_⟩
    calc |q - m * 2 ^ k| ≤ |q - r * 2 ^ t| := least z _ hz
      _ = |q / 2 ^ t - r| * 2 ^ t := OnGrid.scaled_dist _
      _ ≤ 1 / 2 * 2 ^ t := mul_le_mul_of_nonneg_right hgrid.rounded.near (by positivity)
      _ = 2 ^ 52 * 2 ^ t / 2 ^ 53 := by ring
      _ ≤ q / 2 ^ 53 := by gcongr

end Decimal
end CurveSketch
