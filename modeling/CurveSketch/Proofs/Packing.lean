import CurveSketch.Decimal.Double
import Mathlib

/-!
# CurveSketch.Proofs.Packing

The fields of a double. What the arithmetic packs into 64 bits is what `Decoded.ofFloat` reads from
them, and what is decoded as a positive finite double is what the arithmetic unpacks
(`Decoded.ofFloat_pack`, `unpack_of_decoded`).
-/

namespace CurveSketch
namespace Decimal

open Float.Model (UnpackedFloat Format)
open Float.Model.UnpackedFloat

/-- The bits of a finite double: a sign, the exponent in its biased form, and the fraction, to
which a normal double adds the leading bit. -/
theorem Decoded.ofFloat_eq_finite {x : Float} {negative : Bool} {m : Nat} {e : Int}
    (h : Decoded.ofFloat x = .finite negative m e) :
    ∃ biased fraction, fraction < 2 ^ 52 ∧
      x.toBits.toNat = (if negative then 2 ^ 63 else 0) + biased * 2 ^ 52 + fraction ∧
      (biased = 0 ∧ m = fraction ∧ e = -1074 ∨
        0 < biased ∧ biased < 2047 ∧ m = fraction + 2 ^ 52 ∧ e = biased - 1075) := by
  have hsize : x.toBits.toNat < 2 ^ 64 := x.toBits.toNat_lt
  unfold Decoded.ofFloat hiddenBit at h
  simp only [beq_iff_eq] at h
  refine ⟨x.toBits.toNat / 2 ^ 52 % 2048, x.toBits.toNat % 2 ^ 52, Nat.mod_lt _ (by decide), ?_, ?_⟩
  · have hsign : (x.toBits.toNat / (2048 * 0x10000000000000) == 1) = negative := by
      split at h
      · split at h <;> cases h
      · split at h <;> cases h <;> rfl
    cases negative with
    | false =>
      have := beq_eq_false_iff_ne.mp hsign
      simp only [Bool.false_eq_true, if_false]
      omega
    | true =>
      have := beq_iff_eq.mp hsign
      simp only [if_true]
      omega
  · split at h
    · split at h <;> cases h
    · split at h
      case isTrue hzero =>
        cases h
        exact .inl ⟨hzero, rfl, rfl⟩
      case isFalse hzero =>
        cases h
        exact .inr ⟨by omega, by omega, rfl, rfl⟩

theorem toNat_packComponents (exponent : BitVec 11) (mantissa : BitVec 52) :
    (packComponents .binary64 .positive exponent mantissa).toNat =
      exponent.toNat * 2 ^ 52 + mantissa.toNat := by
  unfold packComponents
  rw [BitVec.toNat_append, ← Nat.shiftLeft_add_eq_or_of_lt mantissa.isLt, Nat.shiftLeft_eq,
    BitVec.toNat_append]
  simp [Sign.toBitVec]

theorem Decoded.ofFloat_of_bits {x : Float} {biased fraction : Nat}
    (hbits : x.toBits.toNat = biased * 2 ^ 52 + fraction) (hbiased : biased < 2048)
    (hfraction : fraction < 2 ^ 52) :
    Decoded.ofFloat x =
      if biased = 2047 then (if fraction = 0 then .infinite false else .nan)
      else if biased = 0 then .finite false fraction (-1074)
      else .finite false (fraction + 2 ^ 52) (biased - 1075) := by
  have hlow : x.toBits.toNat % hiddenBit = fraction := by
    unfold hiddenBit
    omega
  have hmiddle : x.toBits.toNat / hiddenBit % 2048 = biased := by
    unfold hiddenBit
    omega
  have hhigh : x.toBits.toNat / (2048 * hiddenBit) = 0 := by
    unfold hiddenBit
    omega
  unfold Decoded.ofFloat
  simp only [hlow, hmiddle, hhigh, beq_iff_eq]
  rfl

/-- A mantissa and exponent in the form of a double: 53 bits, or fewer at the lowest place. -/
structure Canonical (m : Nat) (e : Int) : Prop where
  bits : m < 2 ^ 53
  bottom : -1074 ≤ e
  full : e = -1074 ∨ 2 ^ 52 ≤ m

theorem Canonical.log2 {m : Nat} {e : Int} (h : Canonical m e) (hm : 0 < m) :
    m.log2 + 1 = 53 ↔ 2 ^ 52 ≤ m := by
  have hlt : m.log2 < 53 := (Nat.log2_lt hm.ne').mpr h.bits
  have hle : 52 ≤ m.log2 ↔ 2 ^ 52 ≤ m := Nat.le_log2 hm.ne'
  omega

theorem toBits_pack (f : UnpackedFloat) :
    (Float.ofModel (Float.Model.pack f)).toBits.toNat =
      (UnpackedFloat.pack .binary64 f).toNat := rfl

theorem pack_finite {m : Nat} {e : Int} (sign : Sign) (hm : 0 < m) (h : Canonical m e) :
    UnpackedFloat.pack .binary64 (.finite sign m e hm) =
      if 971 < e then packComponents .binary64 sign (-1#11) 0#52
      else if 2 ^ 52 ≤ m then
        packComponents .binary64 sign (.ofNat 11 (e + 1075).toNat) (.ofNat 52 m)
      else packComponents .binary64 sign 0#11 (.ofNat 52 m) := by
  have hbiased : (e + Format.binary64.exponentBias + (52 : Nat)).toNat =
      (e + 1075).toNat := by
    have : Format.binary64.exponentBias = 1023 := rfl
    omega
  have hover : 2 ^ 11 ≤ (e + 1075).toNat + 1 ↔ 971 < e := by
    have := h.bottom
    omega
  have hbits : m.log2 + 1 = Format.binary64.mantissaBits ↔ 2 ^ 52 ≤ m := h.log2 hm
  simp only [UnpackedFloat.pack, packedInfinity, hbiased,
    hover, hbits]
  rfl

theorem Decoded.ofFloat_pack {m : Nat} {e : Int} (hm : 0 < m) (h : Canonical m e) :
    Decoded.ofFloat (.ofModel (Float.Model.pack (.finite .positive m e hm))) =
      if 971 < e then .infinite false else .finite false m e := by
  have hbits := toBits_pack (.finite .positive m e hm)
  rw [pack_finite .positive hm h] at hbits
  have hlow := h.bits
  have hbottom := h.bottom
  by_cases hover : 971 < e
  · rw [if_pos hover, toNat_packComponents] at hbits
    rw [Decoded.ofFloat_of_bits hbits (by decide) (by decide), if_pos hover]
    rfl
  · rw [if_neg hover] at hbits ⊢
    by_cases hfull : 2 ^ 52 ≤ m
    · rw [if_pos hfull, toNat_packComponents, BitVec.toNat_ofNat, BitVec.toNat_ofNat,
        Nat.mod_eq_of_lt (by omega)] at hbits
      rw [Decoded.ofFloat_of_bits hbits (by omega) (Nat.mod_lt _ (by decide)), if_neg (by omega),
        if_neg (by omega)]
      congr 1 <;> omega
    · have hsmall : (BitVec.ofNat 52 m).toNat = m := by
        rw [BitVec.toNat_ofNat, Nat.mod_eq_of_lt (by omega)]
      rw [if_neg hfull, toNat_packComponents, hsmall] at hbits
      rw [Decoded.ofFloat_of_bits hbits (by decide) (by omega), h.full.resolve_right hfull]
      rfl

theorem toNat_unpackMantissa (b : BitVec (Format.numBits .binary64)) :
    (unpackMantissa b).toNat = b.toNat % 2 ^ 52 := by
  simp [unpackMantissa]

theorem toNat_unpackExponent (b : BitVec (Format.numBits .binary64)) :
    (unpackExponent b).toNat = b.toNat / 2 ^ 52 % 2048 := by
  simp [unpackExponent, Nat.shiftRight_eq_div_pow]

theorem toNat_unpackSign (b : BitVec (Format.numBits .binary64)) :
    (unpackSign b).toNat = b.toNat / 2 ^ 63 % 2 := by
  simp [unpackSign, Nat.shiftRight_eq_div_pow]

/-- The double with the lowest exponent, whose mantissa is the fraction alone. -/
theorem unpack_lowest {b : BitVec (Format.numBits .binary64)} {sign : Sign}
    (hsign : Sign.ofBitVec (unpackSign b) = sign) (hlowest : unpackExponent b = 0#11)
    (hpos : 0 < (unpackMantissa b).toNat) :
    UnpackedFloat.unpack .binary64 b = .finite sign (unpackMantissa b).toNat (-1074) hpos := by
  have hsome : unpackMantissa b ≠ 0#52 := fun heq => by
    rw [heq] at hpos
    exact absurd hpos (by decide)
  have hones : unpackExponent b ≠ -1#11 := hlowest ▸ by decide
  unfold UnpackedFloat.unpack
  rw [if_neg hones, if_pos hlowest, dif_neg hsome, hsign]
  congr 1
  rw [hlowest]
  rfl

theorem unpack_normal {b : BitVec (Format.numBits .binary64)} {sign : Sign}
    (hsign : Sign.ofBitVec (unpackSign b) = sign) (hones : unpackExponent b ≠ -1#11)
    (hnormal : unpackExponent b ≠ 0#11) :
    UnpackedFloat.unpack .binary64 b =
      .finite sign ((unpackMantissa b).toNat + 2 ^ 52) ((unpackExponent b).toNat - 1075)
        (by omega) := by
  have hmantissa : (1#1 ++ unpackMantissa b).toNat = (unpackMantissa b).toNat + 2 ^ 52 := by
    rw [BitVec.toNat_append, ← Nat.shiftLeft_add_eq_or_of_lt (BitVec.isLt _), Nat.shiftLeft_eq,
      Nat.add_comm]
    rfl
  unfold UnpackedFloat.unpack
  rw [if_neg hones, if_neg hnormal, hsign]
  congr 1

/-- What is packed in the form of a double is unpacked again, or is infinite where its exponent is
too large. -/
theorem unpack_pack {m : Nat} {e : Int} (sign : Sign) (hm : 0 < m) (h : Canonical m e) :
    (Float.Model.pack (.finite sign m e hm)).unpack =
      if 971 < e then .infinity sign else .finite sign m e hm := by
  have hbits := h.bits
  have hbottom := h.bottom
  have hsign (exponent : BitVec 11) (mantissa : BitVec 52) :
      Sign.ofBitVec (unpackSign (packComponents .binary64 sign exponent mantissa)) = sign := by
    rw [unpackSign_packComponents, Sign.ofBitVec_toBitVec]
  show UnpackedFloat.unpack .binary64 (UnpackedFloat.pack .binary64 (.finite sign m e hm)) = _
  rw [pack_finite sign hm h]
  split
  case isTrue hover =>
    unfold UnpackedFloat.unpack
    simp only [unpackExponent_packComponents, unpackMantissa_packComponents, hsign]
    rfl
  case isFalse hover =>
    split
    case isTrue hfull =>
      have hexponent : (BitVec.ofNat 11 (e + 1075).toNat).toNat = (e + 1075).toNat := by
        rw [BitVec.toNat_ofNat, Nat.mod_eq_of_lt (by omega)]
      have hmantissa : (BitVec.ofNat 52 m).toNat + 2 ^ 52 = m := by
        rw [BitVec.toNat_ofNat]
        omega
      have hones : BitVec.ofNat 11 (e + 1075).toNat ≠ -1#11 := fun heq => by
        rw [heq] at hexponent
        have : 2047 = (e + 1075).toNat := hexponent
        omega
      have hnormal : BitVec.ofNat 11 (e + 1075).toNat ≠ 0#11 := fun heq => by
        rw [heq] at hexponent
        have : 0 = (e + 1075).toNat := hexponent
        omega
      rw [unpack_normal (hsign _ _)
        (by rwa [unpackExponent_packComponents]) (by rwa [unpackExponent_packComponents])]
      congr 1
      · rw [unpackMantissa_packComponents, hmantissa]
      · rw [unpackExponent_packComponents, hexponent]
        omega
    case isFalse hfull =>
      have hmantissa : (BitVec.ofNat 52 m).toNat = m := by
        rw [BitVec.toNat_ofNat, Nat.mod_eq_of_lt (by omega)]
      rw [unpack_lowest (hsign _ _) (unpackExponent_packComponents)
        (by rw [unpackMantissa_packComponents]; omega)]
      congr 1
      · rw [unpackMantissa_packComponents, hmantissa]
      · exact (h.full.resolve_right hfull).symm

theorem unpack_of_decoded {x : Float} {m : Nat} {e : Int} (hm : 0 < m)
    (h : Decoded.ofFloat x = .finite false m e) :
    x.toModel.unpack = .finite .positive m e hm := by
  obtain ⟨b, hb⟩ : ∃ b : BitVec (Format.numBits .binary64), x.toModel.toBits.toBitVec = b :=
    ⟨_, rfl⟩
  obtain ⟨biased, fraction, hfraction, hbits, hform⟩ := Decoded.ofFloat_eq_finite h
  have hb' : x.toBits.toNat = b.toNat := congrArg BitVec.toNat hb
  rw [hb', if_neg Bool.false_ne_true] at hbits
  have hmantissa : (unpackMantissa b).toNat = fraction := by
    rw [toNat_unpackMantissa]
    omega
  have hexponent : (unpackExponent b).toNat = biased := by
    rw [toNat_unpackExponent]
    omega
  have hsign : Sign.ofBitVec (unpackSign b) = .positive := by
    have hbit : unpackSign b = 0#1 := by
      apply BitVec.eq_of_toNat_eq
      rw [toNat_unpackSign]
      show _ = 0
      omega
    rw [hbit]
    rfl
  show UnpackedFloat.unpack .binary64 x.toModel.toBits.toBitVec = _
  rw [hb]
  rcases hform with ⟨rfl, rfl, rfl⟩ | ⟨hpos, hfinite, rfl, rfl⟩
  · have hlowest : unpackExponent b = 0#11 := BitVec.eq_of_toNat_eq hexponent
    subst hmantissa
    exact unpack_lowest hsign hlowest hm
  · have hones : unpackExponent b ≠ -1#11 := fun heq => by
      rw [heq] at hexponent
      have : biased = 2047 := hexponent.symm
      omega
    have hnormal : unpackExponent b ≠ 0#11 := fun heq => by
      rw [heq] at hexponent
      have : biased = 0 := hexponent.symm
      omega
    subst hmantissa hexponent
    exact unpack_normal hsign hones hnormal

end Decimal
end CurveSketch
