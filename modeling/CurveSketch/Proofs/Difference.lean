import CurveSketch.Proofs.Conversion

/-!
# CurveSketch.Proofs.Difference

Doubles as the rational numbers they are. The arithmetic unpacks from a double what is decoded from
it (`Decoded.ofFloat_eq`), so finite doubles are ordered as their numbers (`lt_iff_value_lt`), and
their sums and differences are those of the numbers, rounded (`add_roundsTo`, `sub_roundsTo`). The
difference of distinct doubles is never zero (`sub_beq_zero`), and the integers below `2^53` are
doubles with their order (`ofInt?_natCast`, `ofNat_lt_ofNat`).
-/

namespace CurveSketch
namespace Decimal

open Rounding
open Float.Model (UnpackedFloat Format)
open Float.Model.UnpackedFloat

def isNegative : Sign → Bool
  | .negative => true
  | .positive => false

def Decoded.ofUnpacked : UnpackedFloat → Decoded
  | .notANumber => .nan
  | .infinity sign => .infinite (isNegative sign)
  | .zero sign => .finite (isNegative sign) 0 (-1074)
  | .finite sign m e _ => .finite (isNegative sign) m e

theorem isNegative_unpackSign (b : BitVec (Format.numBits .binary64)) :
    isNegative (.ofBitVec (unpackSign b)) = (b.toNat / (2048 * hiddenBit) == 1) := by
  have hsize : b.toNat < 2 ^ 64 := b.isLt
  have hsign := toNat_unpackSign b
  unfold hiddenBit
  by_cases hzero : unpackSign b = 0#1
  · rw [hzero] at hsign
    have : b.toNat / (2048 * 0x10000000000000) ≠ 1 := by
      rw [BitVec.toNat_ofNat] at hsign
      omega
    rw [hzero, beq_false_of_ne this]
    rfl
  · have : b.toNat / (2048 * 0x10000000000000) = 1 := by
      have : (unpackSign b).toNat ≠ 0 := fun h => hzero (BitVec.eq_of_toNat_eq h)
      omega
    rw [this, Sign.ofBitVec, if_neg hzero]
    rfl

/-- The arithmetic reads from the bits of a double what is decoded from them. -/
theorem Decoded.ofFloat_eq (x : Float) : ofFloat x = ofUnpacked x.toModel.unpack := by
  obtain ⟨b, hb⟩ : ∃ b : BitVec (Format.numBits .binary64), x.toModel.toBits.toBitVec = b :=
    ⟨_, rfl⟩
  have hbits : x.toBits.toNat = b.toNat := congrArg BitVec.toNat hb
  have hmantissa : (unpackMantissa b).toNat = b.toNat % hiddenBit := toNat_unpackMantissa b
  have hexponent : (unpackExponent b).toNat = b.toNat / hiddenBit % 2048 := toNat_unpackExponent b
  show _ = ofUnpacked (UnpackedFloat.unpack .binary64 x.toModel.toBits.toBitVec)
  rw [hb]
  have hones : unpackExponent b = -1#11 ↔ (unpackExponent b).toNat = 2047 :=
    ⟨fun h => h ▸ rfl, fun h => BitVec.eq_of_toNat_eq h⟩
  have hlowest : unpackExponent b = 0#11 ↔ (unpackExponent b).toNat = 0 :=
    ⟨fun h => h ▸ rfl, fun h => BitVec.eq_of_toNat_eq h⟩
  have hnone : unpackMantissa b = 0#52 ↔ (unpackMantissa b).toNat = 0 :=
    ⟨fun h => h ▸ rfl, fun h => BitVec.eq_of_toNat_eq h⟩
  unfold Decoded.ofFloat UnpackedFloat.unpack
  simp only [hbits, ← hmantissa, ← hexponent, ← isNegative_unpackSign, beq_iff_eq, hones, hlowest,
    hnone]
  split
  · split <;> rfl
  · split
    · rename_i hexp
      split
      · rename_i hzero
        rw [hzero]
        rfl
      · rw [hexp]
        rfl
    · have hfull : (1#1 ++ unpackMantissa b).toNat = (unpackMantissa b).toNat + hiddenBit := by
        rw [BitVec.toNat_append, ← Nat.shiftLeft_add_eq_or_of_lt (BitVec.isLt _), Nat.shiftLeft_eq,
          Nat.add_comm]
        rfl
      rw [← hfull]
      rfl

theorem canonical_of_unpack {x : Float} {sign : Sign} {m : Nat} {e : Int} {h : 0 < m}
    (hx : x.toModel.unpack = .finite sign m e h) : Canonical m e := by
  have hdecoded : Decoded.ofFloat x = .finite (isNegative sign) m e := by
    rw [Decoded.ofFloat_eq, hx]
    rfl
  obtain ⟨biased, fraction, hfraction, -, hform⟩ := Decoded.ofFloat_eq_finite hdecoded
  exact ⟨by omega, by omega, by omega⟩

theorem unpack_of_infinite {x : Float} (h : Decoded.ofFloat x = .infinite false) :
    x.toModel.unpack = .infinity .positive := by
  rw [Decoded.ofFloat_eq] at h
  cases hx : x.toModel.unpack with
  | infinity sign =>
    cases sign with
    | positive => rfl
    | negative => simp [hx, Decoded.ofUnpacked, isNegative] at h
  | notANumber | zero | finite => simp [hx, Decoded.ofUnpacked] at h

theorem value?_cases {x : Float} {q : ℚ} (h : (Decoded.ofFloat x).value? = some q) :
    (∃ sign, x.toModel.unpack = .zero sign ∧ q = 0) ∨
      ∃ sign m e hm, x.toModel.unpack = .finite sign m e hm ∧ Canonical m e ∧
        q = (sign.apply m : Int) * 2 ^ e := by
  rw [Decoded.ofFloat_eq] at h
  cases hx : x.toModel.unpack with
  | notANumber => simp [hx, Decoded.ofUnpacked, Decoded.value?] at h
  | infinity sign => simp [hx, Decoded.ofUnpacked, Decoded.value?] at h
  | zero sign =>
    refine .inl ⟨sign, rfl, ?_⟩
    cases sign <;> simpa [hx, Decoded.ofUnpacked, Decoded.value?] using h.symm
  | finite sign m e hm =>
    refine .inr ⟨sign, m, e, hm, rfl, canonical_of_unpack hx, ?_⟩
    cases sign <;>
      simpa [hx, Decoded.ofUnpacked, Decoded.value?, isNegative, Sign.apply] using h.symm

theorem isFinite_iff (x : Float) :
    x.isFinite = true ↔ ∃ q, (Decoded.ofFloat x).value? = some q := by
  show x.toModel.unpack.isFinite = true ↔ _
  rw [Decoded.ofFloat_eq]
  cases x.toModel.unpack <;> simp [UnpackedFloat.isFinite, Decoded.ofUnpacked, Decoded.value?]

theorem IsNearest.isFinite_iff {q : ℚ} {x : Float} (h : IsNearest q x) :
    x.isFinite = true ↔ q < overflow := by
  rw [Decimal.isFinite_iff]
  cases h with
  | finite m e decoded small least even =>
    exact iff_of_true ⟨m * 2 ^ e, by rw [decoded]; rfl⟩ small
  | infinite decoded large =>
    refine iff_of_false (fun ⟨value, hvalue⟩ => ?_) large.not_gt
    rw [decoded] at hvalue
    cases hvalue

theorem mul_zpow_pos {m : Nat} (hm : 0 < m) (e : Int) : (0 : ℚ) < m * 2 ^ e :=
  mul_pos (by exact_mod_cast hm) (by positivity)

/-! ## Order -/

theorem lt_iff_compare {x y : Float} :
    x < y ↔ x.toModel.unpack.compare y.toModel.unpack = some .lt := by
  show decide (x.toModel < y.toModel) = true ↔ _
  rw [decide_eq_true_eq]
  exact beq_iff_eq

theorem Canonical.lt_of_exponent_lt {m₁ m₂ : Nat} {e₁ e₂ : Int} (h₁ : Canonical m₁ e₁)
    (h₂ : Canonical m₂ e₂) (he : e₁ < e₂) : (m₁ * 2 ^ e₁ : ℚ) < m₂ * 2 ^ e₂ := by
  have hbottom := h₁.bottom
  have hfull : 2 ^ 52 ≤ m₂ := h₂.full.resolve_left (by omega)
  have hm₁ : (m₁ : ℚ) < 2 ^ 53 := by exact_mod_cast h₁.bits
  have hm₂ : (2 ^ 52 : ℚ) ≤ m₂ := by exact_mod_cast hfull
  calc (m₁ * 2 ^ e₁ : ℚ) < 2 ^ 53 * 2 ^ e₁ := mul_lt_mul_of_pos_right hm₁ (by positivity)
    _ ≤ 2 ^ 52 * 2 ^ e₂ := two_pow_53_mul_le he
    _ ≤ m₂ * 2 ^ e₂ := by gcongr

theorem Canonical.compare_eq_lt {m₁ m₂ : Nat} {e₁ e₂ : Int} (h₁ : Canonical m₁ e₁)
    (h₂ : Canonical m₂ e₂) :
    (compare e₁ e₂).then (compare m₁ m₂) = .lt ↔ (m₁ * 2 ^ e₁ : ℚ) < m₂ * 2 ^ e₂ := by
  rcases lt_trichotomy e₁ e₂ with he | rfl | he
  · simp [Int.compare_eq_lt.mpr he, h₁.lt_of_exponent_lt h₂ he]
  · have hpow : (0 : ℚ) < 2 ^ e₁ := by positivity
    rw [Int.compare_eq_eq.mpr rfl, Ordering.then, Nat.compare_eq_lt, mul_lt_mul_iff_left₀ hpow,
      Nat.cast_lt]
  · have := h₂.lt_of_exponent_lt h₁ he
    simp [Int.compare_eq_gt.mpr he, this.le]

theorem lt_iff_value_lt {x y : Float} {a b : ℚ} (hx : (Decoded.ofFloat x).value? = some a)
    (hy : (Decoded.ofFloat y).value? = some b) : x < y ↔ a < b := by
  rw [lt_iff_compare]
  rcases value?_cases hx with ⟨s, hux, rfl⟩ | ⟨s, m, e, hm, hux, hcx, rfl⟩ <;>
    rcases value?_cases hy with ⟨s', huy, rfl⟩ | ⟨s', m', e', hm', huy, hcy, rfl⟩ <;>
    rw [hux, huy]
  case inl.inl => simp [UnpackedFloat.compare]
  case inl.inr =>
    have := mul_zpow_pos hm' e'
    cases s' <;> simp [UnpackedFloat.compare, Sign.apply, this, this.le]
  case inr.inl =>
    have := mul_zpow_pos hm e
    cases s <;> simp [UnpackedFloat.compare, Sign.apply, this, this.le]
  case inr.inr =>
    have hp := mul_zpow_pos hm e
    have hp' := mul_zpow_pos hm' e'
    cases s <;> cases s' <;>
      simp only [UnpackedFloat.compare, Sign.apply, Option.some.injEq, Int.cast_neg,
        Int.cast_natCast, neg_mul, reduceCtorEq, false_iff, true_iff, not_lt]
    case negative.negative =>
      rw [neg_lt_neg_iff, ← hcy.compare_eq_lt hcx, Ordering.swap_then, Int.compare_swap,
        Nat.compare_swap]
    case negative.positive => linarith
    case positive.negative => linarith
    case positive.positive => exact hcx.compare_eq_lt hcy

theorem scaled_value (m : Nat) (e : Int) :
    0 < ((scaled 2 m e).2 : ℚ) ∧ (m : ℚ) * 2 ^ e * (scaled 2 m e).2 = (scaled 2 m e).1 := by
  refine ⟨by exact_mod_cast scaled_den_pos 2 m e (by decide), ?_⟩
  unfold scaled
  split
  · obtain ⟨k, rfl⟩ : ∃ k : Nat, e = -(k : Int) := ⟨e.natAbs, by omega⟩
    simp
  · obtain ⟨k, rfl⟩ : ∃ k : Nat, e = k := ⟨e.natAbs, by omega⟩
    simp

/-- Equal doubles are the same number; the two zeros are. -/
theorem value_eq_of_beq {x y : Float} {a b : ℚ} (hx : (Decoded.ofFloat x).value? = some a)
    (hy : (Decoded.ofFloat y).value? = some b) (h : (x == y) = true) : a = b := by
  have hcompare : x.toModel.unpack.compare y.toModel.unpack = some .eq := beq_iff_eq.mp h
  rcases value?_cases hx with ⟨s, hux, rfl⟩ | ⟨s, m, e, hm, hux, -, rfl⟩ <;>
    rcases value?_cases hy with ⟨s', huy, rfl⟩ | ⟨s', m', e', hm', huy, -, rfl⟩ <;>
    rw [hux, huy] at hcompare
  case inl.inr => cases s' <;> simp [UnpackedFloat.compare] at hcompare
  case inr.inl => cases s <;> simp [UnpackedFloat.compare] at hcompare
  case inr.inr =>
    cases s <;> cases s' <;>
      simp [UnpackedFloat.compare, Ordering.then_eq_eq] at hcompare <;>
      rw [hcompare.1, hcompare.2]

theorem beq_self {x : Float} (h : x.isFinite = true) : (x == x) = true := by
  obtain ⟨q, hq⟩ := (isFinite_iff x).mp h
  show (x.toModel.unpack.compare x.toModel.unpack == some .eq) = true
  rcases value?_cases hq with ⟨s, hx, -⟩ | ⟨s, m, e, hm, hx, -⟩
  · rw [hx]
    rfl
  · rw [hx]
    cases s <;> simp [UnpackedFloat.compare]

/-! ## Sum and difference -/

theorem aligned_value (sign : Sign) (m : Nat) {e t : Int} (ht : t ≤ e) :
    ((sign.apply (decreaseExponent m e t).1 : Int) : ℚ) * 2 ^ t = (sign.apply m : Int) * 2 ^ e := by
  have hshift : (((decreaseExponent m e t).1 : Nat) : ℚ) * 2 ^ t = m * 2 ^ e := by
    rw [decreaseExponent, Nat.shiftLeft_eq, Nat.cast_mul, Nat.cast_pow, Nat.cast_ofNat,
      ← zpow_natCast, Int.toNat_of_nonneg (by omega), mul_assoc, ← zpow_add₀ two_ne_zero,
      sub_add_cancel]
  cases sign <;> simp [Sign.apply, hshift]

def signed : Sign → ℚ → ℚ
  | .negative, a => -a
  | .positive, a => a

theorem apply_mul_zpow (sign : Sign) (m : Nat) (e : Int) :
    ((sign.apply m : Int) : ℚ) * 2 ^ e = signed sign (m * 2 ^ e) := by
  cases sign <;> simp [Sign.apply, signed]

theorem neg_signed (sign : Sign) (a : ℚ) : -signed sign a = signed (-sign) a := by
  cases sign with
  | positive => rfl
  | negative => exact neg_neg a

/-- The unpacked double is that rational. -/
inductive Stands : UnpackedFloat → ℚ → Prop where
  | zero (sign : Sign) : Stands (.zero sign) 0
  | finite (sign : Sign) {m : Nat} {e : Int} (hm : 0 < m) (canonical : Canonical m e) :
      Stands (.finite sign m e hm) (signed sign (m * 2 ^ e))

theorem stands_of_value {x : Float} {q : ℚ} (h : (Decoded.ofFloat x).value? = some q) :
    Stands x.toModel.unpack q := by
  rcases value?_cases h with ⟨sign, hx, rfl⟩ | ⟨sign, m, e, hm, hx, hcanonical, rfl⟩
  · rw [hx]
    exact .zero sign
  · rw [hx, apply_mul_zpow]
    exact .finite sign hm hcanonical

/-- The double is the rational, its size rounded. A zero may have either sign. -/
def RoundsTo (q : ℚ) (x : Float) : Prop :=
  ∃ sign size f, 0 ≤ size ∧ q = signed sign size ∧ Rounds sign size f ∧
    x = .ofModel (Float.Model.pack f)

theorem RoundsTo.isNearest {q : ℚ} {x : Float} (h : RoundsTo q x) (hq : 0 < q) :
    IsNearest q x := by
  obtain ⟨sign, size, f, hsize, rfl, hrounds, rfl⟩ := h
  cases sign with
  | positive => exact hrounds.isNearest
  | negative => exact absurd hq (neg_nonpos.mpr hsize).not_gt

theorem roundsTo_zero (sign : Sign) : RoundsTo 0 (.ofModel (Float.Model.pack (.zero sign))) := by
  refine ⟨sign, 0, _, le_rfl, ?_, ⟨0, -1074, ⟨le_rfl, .inl rfl, by positivity, ?_⟩, rfl⟩, rfl⟩
  · cases sign <;> simp [signed]
  · exact ⟨by simp, by simp⟩

theorem Canonical.onGrid {m : Nat} {e : Int} (h : Canonical m e) : OnGrid (m * 2 ^ e) m e := by
  have hpow : (0 : ℚ) < 2 ^ e := by positivity
  refine ⟨h.bottom, ?_, ?_, ?_⟩
  · refine h.full.imp_right fun hfull => ?_
    gcongr
    exact_mod_cast hfull
  · exact mul_lt_mul_of_pos_right (by exact_mod_cast h.bits) hpow
  · rw [mul_div_cancel_right₀ _ hpow.ne']
    exact ⟨by simp, by simp⟩

theorem Stands.roundsTo {f : UnpackedFloat} {q : ℚ} (h : Stands f q) :
    RoundsTo q (.ofModel (Float.Model.pack f)) := by
  cases h with
  | zero sign => exact roundsTo_zero sign
  | @finite sign m e hm hcanonical =>
    refine ⟨sign, _, _, (mul_zpow_pos hm e).le, rfl, ⟨m, e, hcanonical.onGrid, ?_⟩, rfl⟩
    rw [settled, dif_neg hm.ne', if_pos hcanonical.bits]

theorem normalize_roundsTo (M e : Int) (zeroSign : Sign) :
    RoundsTo (M * 2 ^ e)
      (.ofModel (Float.Model.pack (UnpackedFloat.normalize .binary64 M e zeroSign))) := by
  have hround (sign : Sign) {m : Nat} (hm : 0 < m) : RoundsTo ((sign.apply m : Int) * 2 ^ e)
      (.ofModel (Float.Model.pack (UnpackedFloat.round .binary64 sign m e))) :=
    ⟨sign, _, _, (mul_zpow_pos hm e).le, apply_mul_zpow sign m e, round_rounds sign hm e, rfl⟩
  unfold UnpackedFloat.normalize
  rcases lt_trichotomy M 0 with hM | rfl | hM
  · have hround := @hround .negative (-M).toNat (by omega)
    rw [Sign.apply, Int.toNat_of_nonneg (by omega), neg_neg] at hround
    rw [Int.compare_eq_lt.mpr hM]
    exact hround
  · rw [Int.compare_eq_eq.mpr rfl, Int.cast_zero, zero_mul]
    exact roundsTo_zero zeroSign
  · have hround := @hround .positive M.toNat (by omega)
    rw [Sign.apply, Int.toNat_of_nonneg hM.le] at hround
    rw [Int.compare_eq_gt.mpr hM]
    exact hround

theorem Stands.add {f g : UnpackedFloat} {a b : ℚ} (hf : Stands f a) (hg : Stands g b) :
    RoundsTo (a + b) (.ofModel (Float.Model.pack (UnpackedFloat.add .binary64 f g))) := by
  cases hf with
  | zero s =>
    rw [zero_add]
    cases hg with
    | zero s' => cases s <;> cases s' <;> exact roundsTo_zero _
    | finite s' hm hcanonical => exact (Stands.finite s' hm hcanonical).roundsTo
  | @finite s m e hm hcanonical =>
    cases hg with
    | zero s' =>
      rw [add_zero]
      exact (Stands.finite s hm hcanonical).roundsTo
    | @finite s' m' e' hm' hcanonical' =>
      have hvalue : ((s.apply (decreaseExponent m e (min e e')).1 +
          s'.apply (decreaseExponent m' e' (min e e')).1 : Int) : ℚ) * 2 ^ min e e' =
            signed s (m * 2 ^ e) + signed s' (m' * 2 ^ e') := by
        rw [Int.cast_add, add_mul, aligned_value s m (min_le_left e e'),
          aligned_value s' m' (min_le_right e e'), apply_mul_zpow, apply_mul_zpow]
      rw [← hvalue]
      exact normalize_roundsTo _ _ _

theorem Stands.neg {f : UnpackedFloat} {q : ℚ} (h : Stands f q) : Stands f.neg (-q) := by
  cases h with
  | zero sign =>
    rw [neg_zero]
    exact .zero (-sign)
  | finite sign hm hcanonical =>
    rw [neg_signed]
    exact .finite (-sign) hm hcanonical

theorem unpacked_sub (f g : UnpackedFloat) :
    UnpackedFloat.sub .binary64 f g = UnpackedFloat.add .binary64 f g.neg := by
  cases f with
  | notANumber | infinity s | zero s => cases g <;> rfl
  | finite s m e hm =>
    cases g with
    | notANumber | infinity s' | zero s' => rfl
    | finite s' m' e' hm' =>
      cases s' with
      | positive => rfl
      | negative =>
        simp only [UnpackedFloat.sub, UnpackedFloat.add, UnpackedFloat.neg, Sign.apply,
          sub_neg_eq_add]

theorem add_roundsTo {x y : Float} {a b : ℚ} (hx : (Decoded.ofFloat x).value? = some a)
    (hy : (Decoded.ofFloat y).value? = some b) : RoundsTo (a + b) (x + y) :=
  (stands_of_value hx).add (stands_of_value hy)

theorem sub_roundsTo {x y : Float} {a b : ℚ} (hx : (Decoded.ofFloat x).value? = some a)
    (hy : (Decoded.ofFloat y).value? = some b) : RoundsTo (a - b) (x - y) := by
  have hsum := (stands_of_value hx).add (stands_of_value hy).neg
  rw [← unpacked_sub, ← sub_eq_add_neg] at hsum
  exact hsum

theorem exists_smallest_steps {x : Float} {q : ℚ} (h : (Decoded.ofFloat x).value? = some q) :
    ∃ n : Int, q = n * 2 ^ (-1074 : Int) := by
  obtain ⟨k, e, -, he, rfl⟩ := Decoded.value?_eq_some h
  refine ⟨k * 2 ^ (e + 1074).toNat, ?_⟩
  rw [Int.cast_mul, Int.cast_pow, Int.cast_ofNat, ← zpow_natCast, Int.toNat_of_nonneg (by omega),
    mul_assoc, ← zpow_add₀ two_ne_zero, add_assoc]
  simp

/-- What is nearest to a number that is not below the smallest positive double is no zero. -/
theorem IsNearest.ne_zero {q : ℚ} {x : Float} (h : IsNearest q x) (hq : 2 ^ (-1074 : Int) ≤ q) :
    (x == 0) = false := by
  have hzero : (0 : Float).toModel.unpack = .zero .positive := rfl
  show UnpackedFloat.beq x.toModel.unpack (0 : Float).toModel.unpack = false
  rw [hzero]
  cases h with
  | finite m e decoded small least even =>
    have hm : 0 < m := by
      by_contra hm
      have hm : m = 0 := by omega
      have hsmallest : Decoded.ofFloat (.ofBits 1) = .finite false 1 (-1074) := rfl
      have hstep := least (.ofBits 1) (2 ^ (-1074 : Int)) (by simp [hsmallest, Decoded.value?])
      have hpos : (0 : ℚ) < 2 ^ (-1074 : Int) := by positivity
      rw [hm, Nat.cast_zero, zero_mul, sub_zero, abs_of_nonneg (by linarith),
        abs_of_nonneg (by linarith)] at hstep
      linarith
    rw [unpack_of_decoded hm decoded]
    rfl
  | infinite decoded large =>
    rw [unpack_of_infinite decoded]
    rfl

/-- Distinct doubles have a difference other than zero, however near to each other they are. -/
theorem sub_beq_zero {x y : Float} (hx : x.isFinite = true) (hy : y.isFinite = true) (h : y < x) :
    (x - y == 0) = false := by
  obtain ⟨a, ha⟩ := (isFinite_iff x).mp hx
  obtain ⟨b, hb⟩ := (isFinite_iff y).mp hy
  have hlt : b < a := (lt_iff_value_lt hb ha).mp h
  refine ((sub_roundsTo ha hb).isNearest (sub_pos.mpr hlt)).ne_zero ?_
  obtain ⟨n, rfl⟩ := exists_smallest_steps ha
  obtain ⟨k, rfl⟩ := exists_smallest_steps hb
  have hpow : (0 : ℚ) < 2 ^ (-1074 : Int) := by positivity
  have hstep : k + 1 ≤ n := by exact_mod_cast lt_of_mul_lt_mul_right hlt hpow.le
  have hstep : (1 : ℚ) ≤ n - k := by
    have : (k + 1 : ℚ) ≤ n := by exact_mod_cast hstep
    linarith
  calc (2 : ℚ) ^ (-1074 : Int) = 1 * 2 ^ (-1074 : Int) := (one_mul _).symm
    _ ≤ (n - k) * 2 ^ (-1074 : Int) := by gcongr
    _ = n * 2 ^ (-1074 : Int) - k * 2 ^ (-1074 : Int) := sub_mul _ _ _

/-! ## Integers -/

theorem ofNat_isNearest {n : Nat} (hpos : 0 < n) : IsNearest n (Float.ofNat n) := by
  have hnear := ofScientific_isNearest (e := 0) hpos (by omega) (by omega)
  rw [zpow_zero, mul_one] at hnear
  exact hnear

theorem value?_ofNat {n : Nat} (hn : n < 2 ^ 53) :
    (Decoded.ofFloat (Float.ofNat n)).value? = some (n : ℚ) := by
  by_cases hpos : 0 < n
  · obtain ⟨m, e, hm, hunpack, -, hvalue⟩ := toFloat_decoded hpos hn
    have hexact : (Decoded.ofFloat n.toUInt64.toFloat).value? = some (n : ℚ) := by
      rw [Decoded.ofFloat_eq, hunpack, ← hvalue]
      rfl
    cases ofNat_isNearest hpos with
    | finite m e decoded small least even =>
      have hdist := least _ _ hexact
      rw [sub_self, abs_zero, abs_nonpos_iff, sub_eq_zero] at hdist
      rw [decoded, hdist]
      rfl
    | infinite decoded large =>
      have hsmall : (n : ℚ) < 2 ^ 53 := by exact_mod_cast hn
      have hone : (1 : ℚ) ≤ 2 ^ (970 : Int) := one_le_zpow₀ (by norm_num) (by norm_num)
      unfold overflow at large
      generalize (2 : ℚ) ^ (970 : Int) = top at hone large
      linarith
  · obtain rfl : n = 0 := by omega
    have hzero : Decoded.ofFloat (Float.ofNat 0) = .finite false 0 (-1074) := rfl
    simp [hzero, Decoded.value?]

theorem isFinite_ofNat {n : Nat} (hn : n < 2 ^ 53) : (Float.ofNat n).isFinite = true :=
  (isFinite_iff _).mpr ⟨_, value?_ofNat hn⟩

theorem ofNat_lt_ofNat {m n : Nat} (hm : m < 2 ^ 53) (hn : n < 2 ^ 53) :
    Float.ofNat m < Float.ofNat n ↔ m < n := by
  rw [lt_iff_value_lt (value?_ofNat hm) (value?_ofNat hn), Nat.cast_lt]

theorem ofNat_beq_ofNat {m n : Nat} (hm : m < 2 ^ 53) (hn : n < 2 ^ 53) :
    (Float.ofNat m == Float.ofNat n) = (m == n) := by
  cases hbeq : m == n with
  | false =>
    rw [beq_eq_false_iff_ne] at hbeq
    rw [Bool.eq_false_iff]
    intro h
    exact hbeq (by exact_mod_cast value_eq_of_beq (value?_ofNat hm) (value?_ofNat hn) h)
  | true =>
    obtain rfl := beq_iff_eq.mp hbeq
    exact beq_self (isFinite_ofNat hm)

theorem toFloat_natCast {n : Nat} (hn : n < 2 ^ 53) :
    (Scientific.mk n 0).toFloat = Float.ofNat n := by
  by_cases hpos : 0 < n
  · have hcount := digitCount_le_log2 hpos
    have hlog := (Nat.log2_lt hpos.ne').mpr hn
    unfold Scientific.toFloat
    simp only [beq_iff_eq, hpos.ne', if_false]
    rw [if_neg (by omega), if_neg (by omega)]
    rfl
  · obtain rfl : n = 0 := by omega
    rfl

theorem ofInt?_natCast {n : Nat} (hn : n < 2 ^ 53) : ofInt? n = some (Float.ofNat n) := by
  unfold ofInt?
  simp only [Int.natAbs_natCast, toFloat_natCast hn, isFinite_ofNat hn, if_true]
  rw [if_neg (by omega)]

theorem ofInt?_eq_none_iff {n : Int} : ofInt? n = none ↔ overflow ≤ |(n : ℚ)| := by
  have hnear := Scientific.toFloat_isNearest ⟨n.natAbs, 0⟩
  have hvalue : Scientific.value ⟨n.natAbs, 0⟩ = |(n : ℚ)| := by
    simp [Scientific.value, Nat.cast_natAbs]
  rw [hvalue] at hnear
  rw [← not_lt, ← hnear.isFinite_iff]
  unfold ofInt?
  simp

end Decimal
end CurveSketch
