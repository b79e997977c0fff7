import CurveSketch.Proofs.Difference

/-!
# CurveSketch.Proofs.Arithmetic

What rounding leaves of a number. Products and quotients of finite doubles are those of their
numbers, rounded (`mul_roundsTo`, `div_roundsTo`), as their sums are. Rounding keeps the order
(`RoundsTo.le`), gives back every number that is a double (`RoundsTo.value_eq`), moves no number by
more than half a place (`RoundedTo.near`) and ends in a finite double exactly below `overflow`
(`RoundsTo.isFinite_iff`). No operation makes a finite double of one that is not
(`isFinite_of_add`, `isFinite_of_mul`, `isFinite_of_div`).
-/

namespace CurveSketch
namespace Rounding

open Decimal

/-- Of two numbers the larger is not rounded to less; at a common tie both go to the even place. -/
theorem HalfEven.mono {w w' : ℚ} {r r' : Nat} (h : HalfEven w r) (h' : HalfEven w' r')
    (hle : w ≤ w') : r ≤ r' := by
  by_contra hlt
  have hstep : (r' : ℚ) + 1 ≤ r := by exact_mod_cast not_le.mp hlt
  have hnear := abs_le.mp h.near
  have hnear' := abs_le.mp h'.near
  have htie : |w - r| = 1 / 2 := by
    rw [abs_of_nonpos (by linarith)]
    linarith
  have htie' : |w' - r'| = 1 / 2 := by
    rw [abs_of_nonneg (by linarith)]
    linarith
  have hnext : (r : ℚ) = r' + 1 := by linarith
  have hnext : r = r' + 1 := by exact_mod_cast hnext
  have := h.even htie
  have := h'.even htie'
  omega

variable {x y : ℚ} {r r' : Nat} {t t' : Int}

/-- Where the grid changes its step, a power of two lies between the two sides. -/
theorem OnGrid.mono (h : OnGrid x r t) (h' : OnGrid y r' t') (hle : x ≤ y) :
    (r * 2 ^ t : ℚ) ≤ r' * 2 ^ t' := by
  have hbottom := h.bottom
  have hbottom' := h'.bottom
  rcases lt_trichotomy t t' with ht | rfl | ht
  · have hr : (r : ℚ) ≤ 2 ^ 53 := by exact_mod_cast h.le
    have hr' : (2 ^ 52 : ℚ) ≤ r' := by exact_mod_cast h'.full.resolve_left (by omega)
    calc (r * 2 ^ t : ℚ) ≤ 2 ^ 53 * 2 ^ t := by gcongr
      _ ≤ 2 ^ 52 * 2 ^ t' := two_pow_53_mul_le ht
      _ ≤ r' * 2 ^ t' := by gcongr
  · have hscaled : x / 2 ^ t ≤ y / 2 ^ t := by gcongr
    have hr : (r : ℚ) ≤ r' := by exact_mod_cast h.rounded.mono h'.rounded hscaled
    gcongr
  · have hlower := h.lower.resolve_left (by omega)
    have hgap : y < x :=
      calc y < 2 ^ 53 * 2 ^ t' := h'.upper
        _ ≤ 2 ^ 52 * 2 ^ t := two_pow_53_mul_le ht
        _ ≤ x := hlower
    exact absurd hle hgap.not_ge

theorem OnGrid.eq_zero (h : OnGrid 0 r t) : r = 0 := by
  have hrounded := h.rounded
  rw [zero_div] at hrounded
  exact HalfEven.eq_of_natCast (m := 0) (by exact_mod_cast hrounded)

theorem OnGrid.near (h : OnGrid x r t) (hx : 0 ≤ x) :
    |r * 2 ^ t - x| ≤ x / 2 ^ 53 + 2 ^ (-1075 : Int) := by
  have hstep : (0 : ℚ) < 2 ^ t := by positivity
  have hhalf : |r * 2 ^ t - x| ≤ 1 / 2 * 2 ^ t := by
    rw [abs_sub_comm, OnGrid.scaled_dist]
    exact mul_le_mul_of_nonneg_right h.rounded.near hstep.le
  refine hhalf.trans ?_
  rcases h.lower with rfl | hlower
  · have hbottom : (1 / 2 * 2 ^ (-1074 : Int) : ℚ) = 2 ^ (-1075 : Int) := by
      rw [show (-1074 : Int) = 1 + -1075 by norm_num, zpow_add₀ two_ne_zero, zpow_one]
      ring
    rw [hbottom]
    exact le_add_of_nonneg_left (by positivity)
  · have hplace : (1 / 2 * 2 ^ t : ℚ) ≤ x / 2 ^ 53 := by
      rw [le_div_iff₀ (by positivity)]
      linarith
    exact hplace.trans (le_add_of_nonneg_right (by positivity))

theorem pow_1024 : (2 : ℚ) ^ (1024 : Int) = 2 ^ 53 * 2 ^ (971 : Int) := by
  rw [show (1024 : Int) = (53 : Nat) + 971 by norm_num, zpow_add₀ two_ne_zero, zpow_natCast]

/-- From `overflow` on a number is rounded to more than the largest double. -/
theorem OnGrid.lt_overflow_iff (h : OnGrid x r t) :
    x < overflow ↔ (r * 2 ^ t : ℚ) < 2 ^ (1024 : Int) := by
  have hr : (r : ℚ) ≤ 2 ^ 53 := by exact_mod_cast h.le
  have hle := h.le
  constructor
  · intro hx
    by_contra hlarge
    refine (h.overflow_le ?_).not_gt hx
    by_contra hfits
    have ht : t ≤ 971 := by omega
    refine hlarge ?_
    rw [pow_1024]
    rcases ht.lt_or_eq with ht | rfl
    · calc (r * 2 ^ t : ℚ) ≤ 2 ^ 53 * 2 ^ t := by gcongr
        _ < 2 ^ 53 * 2 ^ (971 : Int) := by
            gcongr
            norm_num
    · have hr : (r : ℚ) < 2 ^ 53 := by
        have : r < 2 ^ 53 := by omega
        exact_mod_cast this
      gcongr
  · intro hsmall
    refine h.lt_overflow ?_
    by_contra hbig
    refine hsmall.not_ge ?_
    rw [pow_1024]
    by_cases ht : t = 971
    · have hr : r = 2 ^ 53 := by omega
      rw [ht, hr]
      norm_num
    · have hfull := h.full.resolve_left (by omega)
      have hr : (2 ^ 52 : ℚ) ≤ r := by exact_mod_cast hfull
      calc (2 ^ 53 : ℚ) * 2 ^ (971 : Int) ≤ 2 ^ 52 * 2 ^ t := two_pow_53_mul_le (by omega)
        _ ≤ r * 2 ^ t := by gcongr

end Rounding

namespace Decimal

open Rounding
open Float.Model (UnpackedFloat Format)
open Float.Model.UnpackedFloat

/-! ## Products and quotients -/

theorem signed_sub (s : Sign) (a b : ℚ) : signed s a - signed s b = signed s (a - b) := by
  cases s <;> simp [signed]
  ring

theorem abs_signed (s : Sign) (a : ℚ) : |signed s a| = |a| := by
  cases s <;> simp [signed]

theorem signed_mul (s s' : Sign) (a b : ℚ) :
    signed s a * signed s' b = signed (s * s') (a * b) := by
  cases s <;> cases s' <;> simp [signed]

theorem signed_div (s s' : Sign) (a b : ℚ) :
    signed s a / signed s' b = signed (s / s') (a / b) := by
  cases s <;> cases s' <;> simp [signed, neg_div, div_neg] <;> rfl

theorem Canonical.le_lastPlace_mul {m m' : Nat} {e e' : Int} (h : Canonical m e)
    (h' : Canonical m' e') (hm : 0 < m) (hm' : 0 < m') :
    e + e' ≤ lastPlace (m * m') (e + e') := by
  rcases h.full with hbottom | hfull
  · rcases h'.full with hbottom' | hfull'
    · have : -1074 ≤ lastPlace (m * m') (e + e') := le_max_right _ _
      omega
    · rw [mul_comm]
      exact Rounding.le_lastPlace_mul _ hfull' hm
  · exact Rounding.le_lastPlace_mul _ hfull hm'

theorem Stands.mul {f g : UnpackedFloat} {a b : ℚ} (hf : Stands f a) (hg : Stands g b) :
    RoundsTo (a * b) (.ofModel (Float.Model.pack (UnpackedFloat.mul .binary64 f g))) := by
  cases hf with
  | zero s =>
    rw [zero_mul]
    cases hg with
    | zero s' => exact roundsTo_zero _
    | finite s' hm hcanonical => exact roundsTo_zero _
  | @finite s m e hm hcanonical =>
    cases hg with
    | zero s' =>
      rw [mul_zero]
      exact roundsTo_zero _
    | @finite s' m' e' hm' hcanonical' =>
      rw [signed_mul]
      exact ⟨_, _, _, (mul_pos (mul_zpow_pos hm e) (mul_zpow_pos hm' e')).le, rfl,
        mul_rounds (hcanonical.le_lastPlace_mul hcanonical' hm hm'), rfl⟩

theorem Stands.div {f g : UnpackedFloat} {a b : ℚ} (hf : Stands f a) (hg : Stands g b)
    (hb : b ≠ 0) :
    RoundsTo (a / b) (.ofModel (Float.Model.pack (UnpackedFloat.div .binary64 f g))) := by
  cases hg with
  | zero s' => exact absurd rfl hb
  | @finite s' m' e' hm' hcanonical' =>
    cases hf with
    | zero s =>
      rw [zero_div]
      exact roundsTo_zero _
    | @finite s m e hm hcanonical =>
      rw [signed_div]
      exact ⟨_, _, _, (div_pos (mul_zpow_pos hm e) (mul_zpow_pos hm' e')).le, rfl,
        div_rounds, rfl⟩

section Operations

variable {x y : Float} {a b : ℚ} (hx : (Decoded.ofFloat x).value? = some a)
  (hy : (Decoded.ofFloat y).value? = some b)

include hx hy

theorem mul_roundsTo : RoundsTo (a * b) (x * y) :=
  (stands_of_value hx).mul (stands_of_value hy)

theorem div_roundsTo (hb : b ≠ 0) : RoundsTo (a / b) (x / y) :=
  (stands_of_value hx).div (stands_of_value hy) hb

end Operations

/-! ## Rounded numbers -/

/-- The number rounded half to even on the grid of the doubles at its size, as if their exponents
had no upper bound. -/
inductive RoundedTo : ℚ → ℚ → Prop where
  | intro (sign : Sign) {size : ℚ} {r : Nat} {t : Int} (nonneg : 0 ≤ size)
      (grid : OnGrid size r t) : RoundedTo (signed sign size) (signed sign (r * 2 ^ t))

theorem RoundedTo.mono {p q v w : ℚ} (hv : RoundedTo p v) (hw : RoundedTo q w) (h : p ≤ q) :
    v ≤ w := by
  obtain @⟨s, a, r, t, ha, hgrid⟩ := hv
  obtain @⟨s', b, r', t', hb, hgrid'⟩ := hw
  have hr : (0 : ℚ) ≤ r * 2 ^ t := by positivity
  have hr' : (0 : ℚ) ≤ r' * 2 ^ t' := by positivity
  cases s <;> cases s' <;> simp only [signed] at h ⊢
  case negative.negative => exact neg_le_neg (hgrid'.mono hgrid (neg_le_neg_iff.mp h))
  case negative.positive => linarith
  case positive.positive => exact hgrid.mono hgrid' h
  case positive.negative =>
    obtain rfl : a = 0 := by linarith
    obtain rfl : b = 0 := by linarith
    simp [hgrid.eq_zero, hgrid'.eq_zero]

theorem RoundedTo.nonneg {q v : ℚ} (h : RoundedTo q v) (hq : 0 ≤ q) : 0 ≤ v := by
  obtain @⟨s, size, r, t, hsize, hgrid⟩ := h
  cases s with
  | positive => exact mul_nonneg r.cast_nonneg (by positivity)
  | negative =>
    obtain rfl : size = 0 := le_antisymm (neg_nonneg.mp hq) hsize
    simp [hgrid.eq_zero, signed]

theorem RoundedTo.unique {q v w : ℚ} (hv : RoundedTo q v) (hw : RoundedTo q w) : v = w :=
  le_antisymm (hv.mono hw le_rfl) (hw.mono hv le_rfl)

theorem RoundedTo.near {q v : ℚ} (h : RoundedTo q v) :
    |v - q| ≤ |q| / 2 ^ 53 + 2 ^ (-1075 : Int) := by
  obtain ⟨s, ha, hgrid⟩ := h
  rw [signed_sub, abs_signed, abs_signed, abs_of_nonneg ha]
  exact hgrid.near ha

theorem RoundedTo.lt_overflow_iff {q v : ℚ} (h : RoundedTo q v) :
    |q| < overflow ↔ |v| < 2 ^ (1024 : Int) := by
  obtain ⟨s, ha, hgrid⟩ := h
  rw [abs_signed, abs_signed, abs_of_nonneg ha, abs_of_nonneg (by positivity)]
  exact hgrid.lt_overflow_iff

theorem settled_stands (sign : Sign) {x : ℚ} {r : Nat} {t : Int} (h : OnGrid x r t) :
    Stands (settled sign r t) (signed sign (r * 2 ^ t)) := by
  have hle := h.le
  have hbottom := h.bottom
  unfold settled
  split
  case isTrue hzero =>
    have hvalue : signed sign (r * 2 ^ t) = 0 := by cases sign <;> simp [signed, hzero]
    rw [hvalue]
    exact .zero sign
  case isFalse hpos =>
    split
    case isTrue hsmall => exact .finite sign _ ⟨hsmall, hbottom, h.full⟩
    case isFalse hbig =>
      have hvalue : (r * 2 ^ t : ℚ) = (2 ^ 52 : Nat) * 2 ^ (t + 1) := by
        obtain rfl : r = 2 ^ 53 := by omega
        push_cast
        exact two_pow_53_mul t
      rw [hvalue]
      exact .finite sign _ ⟨by decide, by omega, .inr le_rfl⟩

theorem Stands.value {f : UnpackedFloat} {v : ℚ} (h : Stands f v) {x : Float}
    (hx : x.toModel.unpack = f) : (Decoded.ofFloat x).value? = some v := by
  rw [Decoded.ofFloat_eq, hx]
  cases h with
  | zero sign => cases sign <;> simp [Decoded.ofUnpacked, Decoded.value?]
  | finite sign hm hcanonical =>
    cases sign <;> simp [Decoded.ofUnpacked, Decoded.value?, isNegative, signed]

/-- The double that a rounded number is packed into: the number itself, or an infinity where it is
larger than every double. -/
inductive Packs (v : ℚ) (x : Float) : Prop where
  | finite (small : |v| < 2 ^ (1024 : Int)) (value : (Decoded.ofFloat x).value? = some v)
  | infinite (sign : Sign) (large : (2 : ℚ) ^ (1024 : Int) ≤ signed sign v)
      (unpacked : x.toModel.unpack = .infinity sign)

theorem Stands.packs {f : UnpackedFloat} {v : ℚ} (h : Stands f v) :
    Packs v (.ofModel (Float.Model.pack f)) := by
  cases h with
  | zero sign =>
    refine .finite ?_ ((Stands.zero sign).value unpack_packedZero)
    rw [abs_zero]
    positivity
  | @finite sign m e hm hcanonical =>
    have hunpacked := unpack_pack sign hm hcanonical
    have hm : (m : ℚ) < 2 ^ 53 := by exact_mod_cast hcanonical.bits
    split at hunpacked
    case isTrue hover =>
      refine .infinite sign ?_ hunpacked
      have hm' : (2 ^ 52 : ℚ) ≤ m := by exact_mod_cast hcanonical.full.resolve_left (by omega)
      have hsigned : signed sign (signed sign (m * 2 ^ e)) = m * 2 ^ e := by
        cases sign <;> simp [signed]
      calc (2 : ℚ) ^ (1024 : Int) = 2 ^ 53 * 2 ^ (971 : Int) := pow_1024
        _ ≤ 2 ^ 52 * 2 ^ e := two_pow_53_mul_le hover
        _ ≤ m * 2 ^ e := by gcongr
        _ = signed sign (signed sign (m * 2 ^ e)) := hsigned.symm
    case isFalse hfits =>
      refine .finite ?_ ((Stands.finite sign _ hcanonical).value hunpacked)
      rw [abs_signed, abs_of_nonneg (by positivity), pow_1024]
      calc (m * 2 ^ e : ℚ) < 2 ^ 53 * 2 ^ e := mul_lt_mul_of_pos_right hm (by positivity)
        _ ≤ 2 ^ 53 * 2 ^ (971 : Int) := by
            gcongr
            · norm_num
            · omega

theorem RoundsTo.exists_rounded {q : ℚ} {x : Float} (h : RoundsTo q x) :
    ∃ v, RoundedTo q v ∧ Packs v x := by
  obtain ⟨sign, size, f, hsize, rfl, ⟨r, t, hgrid, rfl⟩, rfl⟩ := h
  exact ⟨_, .intro sign hsize hgrid, (settled_stands sign hgrid).packs⟩

theorem isFinite_of_value {x : Float} {q : ℚ} (h : (Decoded.ofFloat x).value? = some q) :
    x.isFinite = true :=
  (isFinite_iff x).mpr ⟨q, h⟩

theorem not_isFinite_of_unpack {x : Float} {sign : Sign}
    (h : x.toModel.unpack = .infinity sign) : ¬x.isFinite = true := by
  show ¬x.toModel.unpack.isFinite = true
  rw [h]
  exact Bool.false_ne_true

theorem RoundsTo.value {q : ℚ} {x : Float} (h : RoundsTo q x) (hx : x.isFinite = true) :
    ∃ v, (Decoded.ofFloat x).value? = some v ∧ RoundedTo q v := by
  obtain ⟨v, hrounded, hpacks⟩ := h.exists_rounded
  cases hpacks with
  | finite small value => exact ⟨v, value, hrounded⟩
  | infinite sign large unpacked => exact absurd hx (not_isFinite_of_unpack unpacked)

/-- The result is finite below `overflow` and infinite from there on. -/
theorem RoundsTo.isFinite_iff {q : ℚ} {x : Float} (h : RoundsTo q x) :
    x.isFinite = true ↔ |q| < overflow := by
  obtain ⟨v, hrounded, hpacks⟩ := h.exists_rounded
  rw [hrounded.lt_overflow_iff]
  cases hpacks with
  | finite small value => exact iff_of_true (isFinite_of_value value) small
  | infinite sign large unpacked =>
    refine iff_of_false (not_isFinite_of_unpack unpacked) (not_lt.mpr (large.trans ?_))
    rw [← abs_signed sign]
    exact le_abs_self _

theorem pack_unpack_eq (x : Float) : Float.ofModel (Float.Model.pack x.toModel.unpack) = x :=
  Float.ofBits_toBits x

theorem roundsTo_self {x : Float} {q : ℚ} (h : (Decoded.ofFloat x).value? = some q) :
    RoundsTo q x := by
  rw [← pack_unpack_eq x]
  exact (stands_of_value h).roundsTo

theorem abs_lt_overflow {x : Float} {q : ℚ} (h : (Decoded.ofFloat x).value? = some q) :
    |q| < overflow :=
  (roundsTo_self h).isFinite_iff.mp (isFinite_of_value h)

theorem RoundsTo.value_eq {q : ℚ} {x y : Float} (h : RoundsTo q x)
    (hy : (Decoded.ofFloat y).value? = some q) : (Decoded.ofFloat x).value? = some q := by
  obtain ⟨v, hvalue, hrounded⟩ := h.value (h.isFinite_iff.mpr (abs_lt_overflow hy))
  obtain ⟨w, hvalue', hrounded'⟩ := (roundsTo_self hy).value (isFinite_of_value hy)
  obtain rfl : w = q := Option.some.inj (hvalue'.symm.trans hy)
  rw [hvalue, hrounded.unique hrounded']

/-! ## Order -/

theorem compare_swap (f g : UnpackedFloat) :
    g.compare f = (f.compare g).map Ordering.swap := by
  cases f with
  | notANumber => cases g <;> rfl
  | infinity s =>
    cases g with
    | infinity s' => cases s <;> cases s' <;> rfl
    | notANumber | zero | finite => cases s <;> rfl
  | zero s =>
    cases g with
    | notANumber | zero => rfl
    | infinity s' | finite s' => cases s' <;> rfl
  | finite s m e hm =>
    cases g with
    | notANumber => rfl
    | infinity s' => cases s' <;> rfl
    | zero s' => cases s <;> rfl
    | finite s' m' e' hm' =>
      cases s <;> cases s' <;>
        simp [UnpackedFloat.compare, Ordering.swap_then, Int.compare_swap, Nat.compare_swap]

theorem compare_eq_none {f g : UnpackedFloat} (h : f.compare g = none) :
    f = .notANumber ∨ g = .notANumber := by
  revert h
  fun_cases UnpackedFloat.compare f g <;> simp

theorem le_iff_compare {x y : Float} :
    x ≤ y ↔ (x.toModel.unpack.compare y.toModel.unpack).any (·.isLE) = true := by
  show decide (x.toModel ≤ y.toModel) = true ↔ _
  rw [decide_eq_true_eq]
  rfl

section Comparisons

variable {x y z : Float}

theorem le_iff_not_lt (hx : x.toModel.unpack ≠ .notANumber) (hy : y.toModel.unpack ≠ .notANumber) :
    x ≤ y ↔ ¬y < x := by
  rw [le_iff_compare, lt_iff_compare, compare_swap x.toModel.unpack]
  cases hcompare : x.toModel.unpack.compare y.toModel.unpack with
  | none => exact absurd (compare_eq_none hcompare) (not_or.mpr ⟨hx, hy⟩)
  | some o => cases o <;> simp

theorem unpack_ne_notANumber (hx : x.isFinite = true) : x.toModel.unpack ≠ .notANumber :=
  fun h => Bool.false_ne_true ((congrArg UnpackedFloat.isFinite h).symm.trans hx)

theorem le_iff_value_le {a b : ℚ} (hx : (Decoded.ofFloat x).value? = some a)
    (hy : (Decoded.ofFloat y).value? = some b) : x ≤ y ↔ a ≤ b := by
  rw [le_iff_not_lt (unpack_ne_notANumber (isFinite_of_value hx))
    (unpack_ne_notANumber (isFinite_of_value hy)), lt_iff_value_lt hy hx, not_lt]

theorem le_of_infinity (hx : x.toModel.unpack ≠ .notANumber)
    (hy : y.toModel.unpack = .infinity .positive) : x ≤ y := by
  rw [le_iff_not_lt hx (by simp [hy]), lt_iff_compare, hy]
  cases hux : x.toModel.unpack with
  | notANumber => exact absurd hux hx
  | infinity s => cases s <;> decide
  | zero | finite => simp [UnpackedFloat.compare]

theorem le_of_infinity_neg (hx : x.toModel.unpack = .infinity .negative)
    (hy : y.toModel.unpack ≠ .notANumber) : x ≤ y := by
  rw [le_iff_not_lt (by simp [hx]) hy, lt_iff_compare, hx]
  cases huy : y.toModel.unpack with
  | notANumber => exact absurd huy hy
  | infinity s => cases s <;> decide
  | zero | finite => simp [UnpackedFloat.compare]

theorem beq_of_le_of_le (h : x ≤ y) (h' : y ≤ x) : (x == y) = true := by
  rw [le_iff_compare] at h h'
  rw [compare_swap x.toModel.unpack] at h'
  show (x.toModel.unpack.compare y.toModel.unpack == some .eq) = true
  cases hcompare : x.toModel.unpack.compare y.toModel.unpack with
  | none => simp [hcompare] at h
  | some o => cases o <;> simp [hcompare] at h h' ⊢

theorem beq_iff_value_eq {a b : ℚ} (hx : (Decoded.ofFloat x).value? = some a)
    (hy : (Decoded.ofFloat y).value? = some b) : (x == y) = true ↔ a = b := by
  refine ⟨value_eq_of_beq hx hy, fun h => ?_⟩
  exact beq_of_le_of_le ((le_iff_value_le hx hy).mpr h.le) ((le_iff_value_le hy hx).mpr h.ge)

theorem isFinite_of_le (h : x ≤ y) (hx : x.toModel.unpack ≠ .infinity .negative)
    (hy : y.toModel.unpack ≠ .infinity .positive) : x.isFinite = true ∧ y.isFinite = true := by
  rw [le_iff_compare] at h
  show x.toModel.unpack.isFinite = true ∧ y.toModel.unpack.isFinite = true
  generalize x.toModel.unpack = f at h hx
  generalize y.toModel.unpack = g at h hy
  revert h
  fun_cases UnpackedFloat.compare f g with
  | case3 s s' => cases s <;> cases s' <;> simp_all [compare]
  | _ => simp_all [UnpackedFloat.isFinite]

theorem isFinite_of_between (hx : x.isFinite = true) (hz : z.isFinite = true) (hxy : x ≤ y)
    (hyz : y ≤ z) : y.isFinite = true := by
  by_cases hy : y.toModel.unpack = .infinity .positive
  · exact (isFinite_of_le hyz (by simp [hy]) fun h => not_isFinite_of_unpack h hz).1
  · exact (isFinite_of_le hxy (fun h => not_isFinite_of_unpack h hx) hy).2

end Comparisons

theorem Packs.ne_notANumber {v : ℚ} {x : Float} (h : Packs v x) :
    x.toModel.unpack ≠ .notANumber := by
  cases h with
  | finite small value => exact unpack_ne_notANumber (isFinite_of_value value)
  | infinite sign large unpacked => simp [unpacked]

theorem Packs.le {v w : ℚ} {x y : Float} (hx : Packs v x) (hy : Packs w y) (h : v ≤ w) :
    x ≤ y := by
  have hxnan := hx.ne_notANumber
  have hynan := hy.ne_notANumber
  cases hx with
  | finite small value =>
    cases hy with
    | finite small' value' => exact (le_iff_value_le value value').mpr h
    | infinite sign large unpacked =>
      cases sign with
      | positive => exact le_of_infinity hxnan unpacked
      | negative =>
        have := (abs_lt.mp small).1
        simp only [signed] at large
        linarith
  | infinite sign large unpacked =>
    cases sign with
    | negative => exact le_of_infinity_neg unpacked hynan
    | positive =>
      simp only [signed] at large
      cases hy with
      | finite small' value' =>
        have := (abs_lt.mp small').2
        linarith
      | infinite sign' large' unpacked' =>
        cases sign' with
        | positive => exact le_of_infinity hxnan unpacked'
        | negative =>
          have hpos : (0 : ℚ) < 2 ^ (1024 : Int) := by positivity
          have hw : w < 0 := neg_pos.mp (hpos.trans_le large')
          exact absurd (hpos.trans_le (large.trans h)) hw.not_gt

theorem RoundsTo.le {p q : ℚ} {x y : Float} (hx : RoundsTo p x) (hy : RoundsTo q y) (h : p ≤ q) :
    x ≤ y := by
  obtain ⟨v, hv, hpacks⟩ := hx.exists_rounded
  obtain ⟨w, hw, hpacks'⟩ := hy.exists_rounded
  exact hpacks.le hpacks' (hv.mono hw h)

theorem RoundsTo.ne_notANumber {q : ℚ} {x : Float} (h : RoundsTo q x) :
    x.toModel.unpack ≠ .notANumber := by
  obtain ⟨v, -, hpacks⟩ := h.exists_rounded
  exact hpacks.ne_notANumber

/-! ## Values and sizes -/

theorem value?_zero : (Decoded.ofFloat 0).value? = some 0 :=
  (Stands.zero .positive).value rfl

/-- The largest double is half a place below `overflow`. -/
theorem value_le_largest {x : Float} {q : ℚ} (h : (Decoded.ofFloat x).value? = some q) :
    q ≤ overflow - 2 ^ (970 : Int) := by
  cases hdecoded : Decoded.ofFloat x with
  | nan | infinite => simp [hdecoded, Decoded.value?] at h
  | finite negative m e =>
    obtain ⟨biased, fraction, hfraction, -, hform⟩ := Decoded.ofFloat_eq_finite hdecoded
    rw [hdecoded, Decoded.value?, Option.some.injEq] at h
    have hm : (m : ℚ) ≤ 2 ^ 53 - 1 := by
      have : m + 1 ≤ 2 ^ 53 := by omega
      have : (m + 1 : ℚ) ≤ 2 ^ 53 := by exact_mod_cast this
      linarith
    have hsign : (if negative then -(m : ℚ) else m) ≤ m := by
      have : (0 : ℚ) ≤ m := m.cast_nonneg
      split <;> linarith
    calc q = (if negative then -(m : ℚ) else m) * 2 ^ e := h.symm
      _ ≤ m * 2 ^ e := by gcongr
      _ ≤ (2 ^ 53 - 1) * 2 ^ (971 : Int) := by
          gcongr
          · norm_num
          · omega
      _ = overflow - 2 ^ (970 : Int) := by
          rw [overflow, show (971 : Int) = 1 + 970 by norm_num, zpow_add₀ two_ne_zero]
          ring

theorem pow_1021 : (2 : ℚ) ^ (1021 : Int) = 2 ^ 51 * 2 ^ (970 : Int) := by
  rw [← zpow_natCast, ← zpow_add₀ two_ne_zero]
  norm_num

theorem short_lt_overflow : (2 : ℚ) ^ (1021 : Int) + 2 ^ (970 : Int) < overflow := by
  have hpos : (0 : ℚ) < 2 ^ (970 : Int) := by positivity
  rw [pow_1021, overflow]
  generalize (2 : ℚ) ^ (970 : Int) = top at hpos ⊢
  linarith

theorem unpack_of_value_pos {x : Float} {q : ℚ} (h : (Decoded.ofFloat x).value? = some q)
    (hq : 0 < q) : ∃ m e hm, x.toModel.unpack = .finite .positive m e hm := by
  rcases value?_cases h with ⟨sign, hx, rfl⟩ | ⟨sign, m, e, hm, hx, -, rfl⟩
  · exact absurd hq (lt_irrefl 0)
  · cases sign with
    | positive => exact ⟨m, e, hm, hx⟩
    | negative =>
      rw [apply_mul_zpow] at hq
      exact absurd hq (neg_nonpos.mpr (mul_zpow_pos hm e).le).not_gt

theorem value?_one : (Decoded.ofFloat 1).value? = some 1 := by
  exact_mod_cast value?_ofNat (n := 1) (by decide)

theorem eq_of_value {x y : Float} {q : ℚ} (hx : (Decoded.ofFloat x).value? = some q)
    (hy : (Decoded.ofFloat y).value? = some q) (hq : q ≠ 0) : x = y := by
  have hbeq : (x == y) = true := (beq_iff_value_eq hx hy).mpr rfl
  have hnegZero : (Decoded.ofFloat (-0)).value? = some 0 := (Stands.zero .negative).value rfl
  rcases Float.beq_iff_ne_nan_and_eq.mp hbeq with ⟨-, -, h | ⟨rfl, -⟩ | ⟨rfl, -⟩⟩
  · exact h
  · exact absurd (Option.some.inj (hx.symm.trans value?_zero)) hq
  · exact absurd (Option.some.inj (hx.symm.trans hnegZero)) hq

/-! ## What is not finite stays so -/

theorem isFinite_of_pack {f : UnpackedFloat}
    (h : (Float.ofModel (Float.Model.pack f)).isFinite = true) : f.isFinite = true := by
  cases f with
  | notANumber => exact h
  | infinity s => cases s <;> exact h
  | zero s => rfl
  | finite => rfl

section Operands

variable {x y z : Float}

theorem isFinite_of_add (h : (x + y).isFinite = true) : x.isFinite = true ∧ y.isFinite = true := by
  have hadd : (UnpackedFloat.add .binary64 x.toModel.unpack y.toModel.unpack).isFinite = true :=
    isFinite_of_pack h
  show x.toModel.unpack.isFinite = true ∧ y.toModel.unpack.isFinite = true
  revert hadd
  generalize x.toModel.unpack = f
  generalize y.toModel.unpack = g
  fun_cases UnpackedFloat.add .binary64 f g <;> simp [UnpackedFloat.isFinite]

theorem isFinite_of_mul (h : (x * y).isFinite = true) : x.isFinite = true ∧ y.isFinite = true := by
  have hmul : (UnpackedFloat.mul .binary64 x.toModel.unpack y.toModel.unpack).isFinite = true :=
    isFinite_of_pack h
  show x.toModel.unpack.isFinite = true ∧ y.toModel.unpack.isFinite = true
  revert hmul
  generalize x.toModel.unpack = f
  generalize y.toModel.unpack = g
  fun_cases UnpackedFloat.mul .binary64 f g <;> simp [UnpackedFloat.isFinite]

theorem isFinite_of_div (h : (x / y).isFinite = true) : x.isFinite = true := by
  have hdiv : (UnpackedFloat.div .binary64 x.toModel.unpack y.toModel.unpack).isFinite = true :=
    isFinite_of_pack h
  show x.toModel.unpack.isFinite = true
  revert hdiv
  generalize x.toModel.unpack = f
  generalize y.toModel.unpack = g
  fun_cases UnpackedFloat.div .binary64 f g <;> simp [UnpackedFloat.isFinite]

theorem finite_or_infinity (h : x.toModel.unpack ≠ .notANumber) :
    x.isFinite = true ∨ ∃ sign, x.toModel.unpack = .infinity sign := by
  show x.toModel.unpack.isFinite = true ∨ _
  cases hx : x.toModel.unpack with
  | notANumber => exact absurd hx h
  | infinity sign => exact .inr ⟨sign, rfl⟩
  | zero | finite => exact .inl rfl

theorem ne_notANumber_of_le (h : x ≤ y) :
    x.toModel.unpack ≠ .notANumber ∧ y.toModel.unpack ≠ .notANumber := by
  rw [le_iff_compare] at h
  constructor <;> intro hnan <;> rw [hnan] at h
  · exact Bool.false_ne_true h
  · rw [compare_swap .notANumber] at h
    exact Bool.false_ne_true h

theorem unpack_add_infinity {sign : Sign} (hx : x.isFinite = true)
    (hy : y.toModel.unpack = .infinity sign) : (x + y).toModel.unpack = .infinity sign := by
  have hadd : UnpackedFloat.add .binary64 x.toModel.unpack (.infinity sign) = .infinity sign := by
    change x.toModel.unpack.isFinite = true at hx
    cases hux : x.toModel.unpack with
    | notANumber | infinity => simp [hux, UnpackedFloat.isFinite] at hx
    | zero | finite => rfl
  show (Float.Model.pack (UnpackedFloat.add .binary64 x.toModel.unpack y.toModel.unpack)).unpack = _
  rw [hy, hadd]
  cases sign <;> rfl

theorem add_ne_notANumber (hx : x.isFinite = true) (hy : y.toModel.unpack ≠ .notANumber) :
    (x + y).toModel.unpack ≠ .notANumber := by
  rcases finite_or_infinity hy with hy | ⟨sign, hy⟩
  · obtain ⟨a, ha⟩ := (isFinite_iff x).mp hx
    obtain ⟨b, hb⟩ := (isFinite_iff y).mp hy
    exact (add_roundsTo ha hb).ne_notANumber
  · simp [unpack_add_infinity hx hy]

/-- Adding the same number keeps the order, also where the sums are infinite. -/
theorem add_mono (hx : x.isFinite = true) (h : y ≤ z) : x + y ≤ x + z := by
  obtain ⟨hynan, hznan⟩ := ne_notANumber_of_le h
  have hsum := add_ne_notANumber hx hynan
  have hsum' := add_ne_notANumber hx hznan
  by_cases hinfinite : z.toModel.unpack = .infinity .positive
  · exact le_of_infinity hsum (unpack_add_infinity hx hinfinite)
  by_cases hinfinite' : y.toModel.unpack = .infinity .negative
  · exact le_of_infinity_neg (unpack_add_infinity hx hinfinite') hsum'
  obtain ⟨hy, hz⟩ := isFinite_of_le h hinfinite' hinfinite
  obtain ⟨a, ha⟩ := (isFinite_iff x).mp hx
  obtain ⟨b, hb⟩ := (isFinite_iff y).mp hy
  obtain ⟨c, hc⟩ := (isFinite_iff z).mp hz
  exact (add_roundsTo ha hb).le (add_roundsTo ha hc)
    (by linarith [(le_iff_value_le hb hc).mp h])

theorem sub_zero_eq (x : Float) : x - 0 = x := by
  have hsub : UnpackedFloat.sub .binary64 x.toModel.unpack (.zero .positive) = x.toModel.unpack := by
    cases x.toModel.unpack with
    | zero sign => cases sign <;> rfl
    | notANumber | infinity | finite => rfl
  show Float.ofModel (Float.Model.pack
    (UnpackedFloat.sub .binary64 x.toModel.unpack (.zero .positive))) = x
  rw [hsub, pack_unpack_eq]

theorem sub_self_of_isFinite (hx : x.isFinite = true) : x - x = 0 := by
  have hsub : UnpackedFloat.sub .binary64 x.toModel.unpack x.toModel.unpack = .zero .positive := by
    change x.toModel.unpack.isFinite = true at hx
    cases hux : x.toModel.unpack with
    | notANumber | infinity => simp [hux, UnpackedFloat.isFinite] at hx
    | zero s => cases s <;> rfl
    | finite s m e hm =>
      simp only [UnpackedFloat.sub, min_self, sub_self]
      rfl
  show Float.ofModel (Float.Model.pack
    (UnpackedFloat.sub .binary64 x.toModel.unpack x.toModel.unpack)) = 0
  rw [hsub]
  rfl

end Operands

/-! ## Integers -/

theorem value?_neg {x : Float} {q : ℚ} (h : (Decoded.ofFloat x).value? = some q) :
    (Decoded.ofFloat (-x)).value? = some (-q) := by
  have hpacks : Packs (-q) (-x) := (stands_of_value h).neg.packs
  have hfinite : (-x).isFinite = true :=
    (stands_of_value h).neg.roundsTo.isFinite_iff.mpr (by rw [abs_neg]; exact abs_lt_overflow h)
  cases hpacks with
  | finite small value => exact value
  | infinite sign large unpacked => exact absurd hfinite (not_isFinite_of_unpack unpacked)

theorem exists_ofInt? {n : Int} (hn : n.natAbs < 2 ^ 53) :
    ∃ x, ofInt? n = some x ∧ (Decoded.ofFloat x).value? = some (n : ℚ) := by
  have hvalue := value?_ofNat hn
  unfold ofInt?
  simp only [toFloat_natCast hn, isFinite_ofNat hn, if_true]
  refine ⟨_, rfl, ?_⟩
  split
  case isTrue hneg =>
    rw [value?_neg hvalue, ← Int.cast_natCast, Int.ofNat_natAbs_of_nonpos hneg.le, Int.cast_neg,
      neg_neg]
  case isFalse hneg => rw [hvalue, ← Int.cast_natCast, Int.natAbs_of_nonneg (by omega)]

end Decimal
end CurveSketch
