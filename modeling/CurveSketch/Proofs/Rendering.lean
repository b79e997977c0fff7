import CurveSketch.Proofs.Significant
import CurveSketch.Proofs.Slices
import CurveSketch.Token

/-!
# CurveSketch.Proofs.Rendering

Numbers written with twelve digits and read again. Written out in full, digits are a numeral for
the number that they stand for (`numeral_positional`). The double that this numeral is read as need
not be the one that was written, but it is close enough to be written in the same way
(`characters_numeralValue`).
-/

namespace CurveSketch
namespace Scan

open Decimal

/-! ### Digits -/

theorem decimalValue_toDigits (n : Nat) : decimalValue (Nat.toDigits 10 n) = n := by
  have hfold : decimalValue (Nat.toDigits 10 n) = Nat.ofDigitChars 10 (Nat.toDigits 10 n) 0 := by
    rw [decimalValue, List.map_reverse, ← ofDigits_eq, Decimal.ofDigits, List.foldl_map]
    rfl
  rw [hfold, Nat.ofDigitChars_toDigits (by decide) le_rfl]

theorem allDigits_toDigits (n : Nat) : AllDigits (Nat.toDigits 10 n) :=
  fun _ hc => Nat.isDigit_of_mem_toDigits (by decide) le_rfl hc

theorem AllDigits.append {ds fs : List Char} (hds : AllDigits ds) (hfs : AllDigits fs) :
    AllDigits (ds ++ fs) := by
  intro c hc
  rcases List.mem_append.mp hc with hc | hc
  · exact hds c hc
  · exact hfs c hc

theorem trailing_zeros (ds : List Char) : ∃ zeros,
    ds = (ds.reverse.dropWhile (· == '0')).reverse ++ List.replicate zeros '0' := by
  have hzeros : ds.reverse.takeWhile (· == '0') =
      List.replicate (ds.reverse.takeWhile (· == '0')).length '0' := by
    refine List.eq_replicate_iff.mpr ⟨rfl, ?_⟩
    intro c hc
    simpa using List.mem_takeWhile_imp hc
  refine ⟨(ds.reverse.takeWhile (· == '0')).length, ?_⟩
  rw [← List.reverse_replicate, ← hzeros, ← List.reverse_append,
    List.takeWhile_append_dropWhile, List.reverse_reverse]

/-- Trailing zeros are left off, and the leading exponent is that of the first digit. -/
theorem leading_eq {s : Scientific} (hs : 0 < s.coefficient) :
    ∃ kept zeros, s.leading = (kept, s.exponent + digitCount s.coefficient - 1) ∧ kept ≠ [] ∧
      AllDigits kept ∧ Nat.toDigits 10 s.coefficient = kept ++ List.replicate zeros '0' := by
  obtain ⟨zeros, hdigits⟩ := trailing_zeros (Nat.toDigits 10 s.coefficient)
  simp only [Scientific.leading]
  generalize ((Nat.toDigits 10 s.coefficient).reverse.dropWhile (· == '0')).reverse = kept
    at hdigits ⊢
  have hkept : kept ≠ [] := by
    rintro rfl
    have hvalue := decimalValue_toDigits s.coefficient
    rw [hdigits, List.nil_append, decimalValue_zeros] at hvalue
    omega
  have hall : AllDigits kept := by
    intro c hc
    refine allDigits_toDigits s.coefficient c ?_
    rw [hdigits]
    exact List.mem_append_left _ hc
  refine ⟨kept, zeros, ?_, hkept, hall, hdigits⟩
  simp [hkept, digitCount]

/-! ### Digits written out in full -/

theorem numeral_positional {ds : List Char} (hds : AllDigits ds) (hsome : ds ≠ []) (e : Int) :
    Numeral (positional "" ds e) (decimalValue ds * 10 ^ (e + 1 - ds.length)) := by
  unfold positional
  split
  case isTrue hneg =>
    have hfraction := (allDigits_zeros (e.natAbs - 1)).append hds
    have hexponent : e + 1 - ds.length =
        -((List.replicate (e.natAbs - 1) '0' ++ ds).length : Int) := by
      rw [List.length_append, List.length_replicate]
      omega
    have hvalue : (decimalValue ds * 10 ^ (e + 1 - ds.length) : ℚ) = decimalValue ['0'] +
        decimalValue (List.replicate (e.natAbs - 1) '0' ++ ds) /
          10 ^ (List.replicate (e.natAbs - 1) '0' ++ ds).length := by
      rw [hexponent, zpow_neg, zpow_natCast, decimalValue_append, decimalValue_zeros,
        show decimalValue ['0'] = 0 from rfl]
      push_cast
      ring
    have hzero : AllDigits ['0'] := allDigits_zeros 1
    have hnumeral := Numeral.point hzero hfraction (.inl (by simp))
    rw [hvalue]
    exact hnumeral
  case isFalse hnonneg =>
    simp only
    split
    case isTrue hwhole =>
      have hdigits := hds.append (allDigits_zeros (e.natAbs + 1 - ds.length))
      have hexponent : e + 1 - ds.length = (e.natAbs + 1 - ds.length : Nat) := by omega
      have hvalue : (decimalValue ds * 10 ^ (e + 1 - ds.length) : ℚ) =
          decimalValue (ds ++ List.replicate (e.natAbs + 1 - ds.length) '0') := by
        rw [hexponent, zpow_natCast, decimalValue_append, decimalValue_zeros,
          List.length_replicate]
        push_cast
        ring
      rw [hvalue, show "".toList = [] from rfl, List.append_nil]
      exact .whole hdigits (by simp [hsome])
    case isFalse hlong =>
      have hfront : AllDigits (ds.take (e.natAbs + 1)) :=
        fun c hc => hds c (List.mem_of_mem_take hc)
      have hback : AllDigits (ds.drop (e.natAbs + 1)) :=
        fun c hc => hds c (List.mem_of_mem_drop hc)
      have hexponent : e + 1 - ds.length = -((ds.drop (e.natAbs + 1)).length : Int) := by
        rw [List.length_drop]
        omega
      have hsplit : decimalValue ds = decimalValue (ds.take (e.natAbs + 1)) *
          10 ^ (ds.drop (e.natAbs + 1)).length + decimalValue (ds.drop (e.natAbs + 1)) := by
        rw [← decimalValue_append, List.take_append_drop]
      have hvalue : (decimalValue ds * 10 ^ (e + 1 - ds.length) : ℚ) =
          decimalValue (ds.take (e.natAbs + 1)) +
            decimalValue (ds.drop (e.natAbs + 1)) / 10 ^ (ds.drop (e.natAbs + 1)).length := by
        rw [hexponent, zpow_neg, zpow_natCast, hsplit]
        push_cast
        field_simp
      rw [hvalue]
      exact .point hfront hback (.inl (by simp [hsome]))

theorem mem_withExponent (ds : List Char) (e : Int) : 'e' ∈ withExponent ds e := by
  unfold withExponent exponentPart
  split <;> simp

theorem numeral_decimal {s : Scientific} (hs : 0 < s.coefficient)
    (hall : ∀ c ∈ Layout.twelve.decimal s, startsNumeral c = true) :
    -4 ≤ s.exponent + digitCount s.coefficient - 1 ∧
      s.exponent + digitCount s.coefficient - 1 < 12 ∧
      Numeral (Layout.twelve.decimal s) s.value := by
  obtain ⟨kept, zeros, hleading, hkept, hdigitsOnly, hdigits⟩ := leading_eq hs
  have hfrom : Layout.twelve.exponentFrom = 12 := rfl
  have hmark : Layout.twelve.wholeMark = "" := rfl
  simp only [Layout.decimal, hleading, hfrom, hmark] at hall ⊢
  split at hall
  case isTrue =>
    have := hall 'e' (mem_withExponent _ _)
    cases this
  case isFalse hrange =>
    rw [Bool.or_eq_true, decide_eq_true_eq, decide_eq_true_eq] at hrange
    refine ⟨by omega, by omega, ?_⟩
    have hcount : (digitCount s.coefficient : Int) = kept.length + zeros := by
      rw [digitCount, hdigits, List.length_append, List.length_replicate]
      push_cast
      rfl
    have hvalue : s.value = decimalValue kept *
        10 ^ (s.exponent + digitCount s.coefficient - 1 + 1 - kept.length) := by
      have hcoefficient : s.coefficient = decimalValue kept * 10 ^ zeros := by
        rw [← decimalValue_toDigits s.coefficient, hdigits, decimalValue_append,
          decimalValue_zeros, List.length_replicate, Nat.add_zero]
      have hexponent : s.exponent + digitCount s.coefficient - 1 + 1 - kept.length =
          zeros + s.exponent := by
        omega
      rw [Scientific.value, hexponent, zpow_add₀ (by norm_num), zpow_natCast, hcoefficient]
      push_cast
      ring
    rw [if_neg (by simpa using hrange), hvalue]
    exact numeral_positional hdigitsOnly hkept _

/-! ### From doubles to digits -/

theorem fraction_scaled (m : Nat) (k : Int) : 0 < (scaled 2 m k).2 ∧
    ((scaled 2 m k).1 / (scaled 2 m k).2 : ℚ) = m * 2 ^ k := by
  obtain ⟨hpos, hvalue⟩ := scaled_value m k
  refine ⟨by exact_mod_cast hpos, ?_⟩
  rw [← hvalue, mul_div_assoc, div_self hpos.ne', mul_one]

theorem scaled_pos {m : Nat} (hm : 0 < m) (k : Int) : 0 < (scaled 2 m k).1 := by
  obtain ⟨hpos, hvalue⟩ := scaled_value m k
  have : (0 : ℚ) < (scaled 2 m k).1 := by
    rw [← hvalue]
    positivity
  exact_mod_cast this

/-- A number is written without an exponent, if it is, from twelve digits of a size that is far from
both ends of the doubles. -/
theorem characters_cases {x : Float}
    (h : ∀ c ∈ Layout.twelve.characters x, startsNumeral c = true) :
    Layout.twelve.characters x = ['0'] ∨ ∃ s : Scientific, 10 ^ 11 ≤ s.coefficient ∧
      s.coefficient < 10 ^ 12 ∧ Layout.twelve.characters x = Layout.twelve.decimal s := by
  unfold Layout.characters at h ⊢
  cases hdecoded : Decoded.ofFloat x with
  | nan =>
    simp only [hdecoded] at h
    exact absurd (h 'n' (by simp [Layout.twelve])) (by decide)
  | infinite negative =>
    simp only [hdecoded] at h
    refine absurd (h 'i' ?_) (by decide)
    cases negative <;> simp [Layout.twelve]
  | finite negative m k =>
    simp only [hdecoded] at h ⊢
    cases negative with
    | true => exact absurd (h '-' (by simp)) (by decide)
    | false =>
      simp only [Bool.false_eq_true, if_false]
      by_cases hm : m = 0
      · left
        subst hm
        rfl
      · right
        have hpos : 0 < m := Nat.pos_of_ne_zero hm
        obtain ⟨hlow, hhigh⟩ := significant_digits (by decide : 0 < 12)
          (scaled_pos hpos k) (fraction_scaled m k).1
        refine ⟨_, hlow, hhigh, ?_⟩
        rw [Layout.magnitude, if_neg (by simpa using hm)]
        rfl

theorem digitCount_of_mem {c : Nat} (hlow : 10 ^ 11 ≤ c) (hhigh : c < 10 ^ 12) :
    digitCount c = 12 := by
  have hle : digitCount c ≤ 12 := (Nat.length_toDigits_le_iff (by decide) (by decide)).mpr hhigh
  have hge : ¬ digitCount c ≤ 11 := by
    intro h
    have := (Nat.length_toDigits_le_iff (by decide) (by decide)).mp h
    omega
  omega

theorem characters_of_near {s : Scientific} {y : Float} {m : Nat} {k : Int}
    (hlow : 10 ^ 11 ≤ s.coefficient) (hhigh : s.coefficient < 10 ^ 12)
    (hy : Decoded.ofFloat y = .finite false m k)
    (hnear : |s.value - m * 2 ^ k| ≤ s.value / 2 ^ 53) :
    Layout.twelve.characters y = Layout.twelve.decimal s := by
  have hpower : (0 : ℚ) < 10 ^ s.exponent := by positivity
  have hcoefficient : (s.coefficient : ℚ) < 10 ^ 12 := by exact_mod_cast hhigh
  have hcoefficient' : (10 : ℚ) ^ 11 ≤ s.coefficient := by exact_mod_cast hlow
  have hdist : |(m * 2 ^ k : ℚ) / 10 ^ s.exponent - s.coefficient| < 1 / 20 := by
    have hscale : (m * 2 ^ k : ℚ) / 10 ^ s.exponent - s.coefficient =
        -(s.value - m * 2 ^ k) / 10 ^ s.exponent := by
      rw [Scientific.value]
      field_simp
      ring
    rw [hscale, abs_div, abs_neg, abs_of_pos hpower, div_lt_iff₀ hpower]
    calc |s.value - m * 2 ^ k| ≤ s.value / 2 ^ 53 := hnear
      _ = s.coefficient / 2 ^ 53 * 10 ^ s.exponent := by
          rw [Scientific.value]
          ring
      _ < 1 / 20 * 10 ^ s.exponent := by
          refine mul_lt_mul_of_pos_right ?_ hpower
          rw [div_lt_iff₀ (by positivity)]
          linarith
  have hpos : 0 < m := by
    refine Nat.pos_of_ne_zero fun hzero => ?_
    rw [hzero, Nat.cast_zero, zero_mul, zero_div, zero_sub, abs_neg, abs_of_nonneg (by linarith)]
      at hdist
    linarith
  have hsignificant : significant 12 (scaled 2 m k).1 (scaled 2 m k).2 = s :=
    significant_eq (by decide) (scaled_pos hpos k) (fraction_scaled m k).1 hlow hhigh
      (by rwa [(fraction_scaled m k).2])
  rw [Layout.characters, hy]
  simp only [Bool.false_eq_true, if_false]
  rw [Layout.magnitude, if_neg (by simpa using hpos.ne')]
  exact congrArg Layout.twelve.decimal hsignificant

/-! ### What can be written -/

theorem lexical_of_isDigit {c : Char} (h : c.isDigit = true) : Lexical c :=
  .inl (by simp [startsNumeral, h])

theorem lexical_of_mem {c : Char} (h : c ∈ ['.', 'e', '+', '-', 'n', 'a', 'i', 'f']) :
    Lexical c := by
  simp only [List.mem_cons, List.not_mem_nil, or_false] at h
  rcases h with rfl | rfl | rfl | rfl | rfl | rfl | rfl | rfl <;> simp only [Lexical] <;> decide

theorem lexical_exponentPart (e : Int) : ∀ c ∈ exponentPart e, Lexical c := by
  intro c hc
  simp only [exponentPart, List.mem_cons, List.mem_append] at hc
  rcases hc with rfl | rfl | hc | hc
  · exact lexical_of_mem (by simp)
  · split <;> exact lexical_of_mem (by simp)
  · exact lexical_of_isDigit (allDigits_zeros _ c hc)
  · exact lexical_of_isDigit (allDigits_toDigits _ c hc)

/-- A digit comes first in a number that is written from digits, and all its characters can stand in
lexemes. -/
structure Written (w : List Char) : Prop where
  first : ∃ c rest, w = c :: rest ∧ c.isDigit = true
  all : ∀ c ∈ w, Lexical c

theorem Written.ne_nil {w : List Char} (h : Written w) : w ≠ [] := by
  obtain ⟨c, rest, rfl, -⟩ := h.first
  exact List.cons_ne_nil c rest

theorem written_withExponent {ds : List Char} (hds : AllDigits ds) (hsome : ds ≠ []) (e : Int) :
    Written (withExponent ds e) := by
  obtain ⟨d, rest, rfl⟩ := List.exists_cons_of_ne_nil hsome
  have hd : d.isDigit = true := hds d (by simp)
  have hrest : ∀ c ∈ rest, Lexical c := fun c hc => lexical_of_isDigit (hds c (by simp [hc]))
  have hexponent := lexical_exponentPart e
  cases rest with
  | nil =>
    refine ⟨⟨d, _, rfl, hd⟩, ?_⟩
    simpa [withExponent] using ⟨lexical_of_isDigit hd, hexponent⟩
  | cons next more =>
    refine ⟨⟨d, _, rfl, hd⟩, ?_⟩
    intro c hc
    simp only [withExponent, List.cons_append, List.mem_cons, List.mem_append] at hc
    rcases hc with rfl | rfl | rfl | hc | hc
    · exact lexical_of_isDigit hd
    · exact lexical_of_mem (by simp)
    · exact hrest c (by simp)
    · exact hrest c (by simp [hc])
    · exact hexponent c hc

theorem written_positional {ds : List Char} (hds : AllDigits ds) (hsome : ds ≠ []) (e : Int) :
    Written (positional "" ds e) := by
  refine ⟨?_, fun c hc => .inl ((numeral_positional hds hsome e).all c hc)⟩
  obtain ⟨d, rest, rfl⟩ := List.exists_cons_of_ne_nil hsome
  have hd : d.isDigit = true := hds d (by simp)
  unfold positional
  split
  · exact ⟨'0', _, rfl, rfl⟩
  · simp only
    split
    · exact ⟨d, _, rfl, hd⟩
    · exact ⟨d, _, rfl, hd⟩

theorem written_decimal {s : Scientific} (hs : 0 < s.coefficient) :
    Written (Layout.twelve.decimal s) := by
  obtain ⟨kept, zeros, hleading, hkept, hall, -⟩ := leading_eq hs
  simp only [Layout.decimal, hleading]
  split
  · exact written_withExponent hall hkept _
  · exact written_positional hall hkept _

theorem written_magnitude (m : Nat) (k : Int) : Written (Layout.twelve.magnitude m k) := by
  unfold Layout.magnitude
  split
  · exact ⟨⟨'0', [], rfl, rfl⟩, fun c hc => lexical_of_isDigit (allDigits_zeros 1 c hc)⟩
  · rename_i hm
    have hpos : 0 < m := Nat.pos_of_ne_zero (by simpa using hm)
    have hdigits := (significant_digits (by decide : 0 < 12) (scaled_pos hpos k)
      (fraction_scaled m k).1).1
    have hcoefficient : 0 < (significant 12 (scaled 2 m k).1 (scaled 2 m k).2).coefficient := by
      omega
    exact written_decimal hcoefficient

theorem characters_eq (x : Float) : ∃ sign body, Layout.twelve.characters x = sign ++ body ∧
    (sign = [] ∨ sign = ['-']) ∧
    (body = ['n', 'a', 'n'] ∨ body = ['i', 'n', 'f'] ∨ Written body) ∧ body ≠ [] := by
  unfold Layout.characters
  cases Decoded.ofFloat x with
  | nan => exact ⟨[], _, rfl, .inl rfl, .inl rfl, List.cons_ne_nil _ _⟩
  | infinite negative =>
    cases negative with
    | false => exact ⟨[], _, rfl, .inl rfl, .inr (.inl rfl), List.cons_ne_nil _ _⟩
    | true => exact ⟨['-'], _, rfl, .inr rfl, .inr (.inl rfl), List.cons_ne_nil _ _⟩
  | finite negative m k =>
    have hwritten := written_magnitude m k
    cases negative with
    | false => exact ⟨[], _, rfl, .inl rfl, .inr (.inr hwritten), hwritten.ne_nil⟩
    | true => exact ⟨['-'], _, rfl, .inr rfl, .inr (.inr hwritten), hwritten.ne_nil⟩

theorem characters_lexical (x : Float) :
    Layout.twelve.characters x ≠ [] ∧ ∀ c ∈ Layout.twelve.characters x, Lexical c := by
  obtain ⟨sign, body, hx, hsign, hbody, hsome⟩ := characters_eq x
  have hsign' : ∀ c ∈ sign, Lexical c := by
    rcases hsign with rfl | rfl
    · simp
    · intro c hc
      rw [List.mem_singleton.mp hc]
      exact lexical_of_mem (by simp)
  have hbody' : ∀ c ∈ body, Lexical c := by
    rcases hbody with rfl | rfl | hwritten
    · exact fun c hc => lexical_of_mem (by simp at hc ⊢; tauto)
    · exact fun c hc => lexical_of_mem (by simp at hc ⊢; tauto)
    · exact hwritten.all
  rw [hx]
  refine ⟨List.append_ne_nil_of_right_ne_nil sign hsome, ?_⟩
  intro c hc
  rcases List.mem_append.mp hc with hc | hc
  · exact hsign' c hc
  · exact hbody' c hc

/-- The scanner has a lexeme for what is written without an exponent only; of the others it takes
two for words. -/
theorem positional_of_isLexeme {x : Float} (h : IsLexeme (Layout.twelve.characters x)) :
    (∀ c ∈ Layout.twelve.characters x, startsNumeral c = true) ∨
      Layout.twelve.characters x = ['n', 'a', 'n'] ∨
      Layout.twelve.characters x = ['i', 'n', 'f'] := by
  obtain ⟨sign, body, hx, hsign, hbody, hsome⟩ := characters_eq x
  rw [hx] at h ⊢
  rcases hsign with rfl | rfl
  · rw [List.nil_append] at h ⊢
    rcases hbody with hword | hword | hwritten
    · exact .inr (.inl hword)
    · exact .inr (.inr hword)
    · left
      obtain ⟨d, rest, rfl, hd⟩ := hwritten.first
      have hstarts : startsNumeral d = true := by simp [startsNumeral, hd]
      cases h with
      | numeral h => exact h.all
      | word h =>
        have hletter := h.2 d (by simp)
        rw [not_isLetter_of_startsNumeral hstarts] at hletter
        cases hletter
      | symbol h eq =>
        cases eq
        rw [not_isSymbol_of_startsNumeral hstarts] at h
        cases h
  · -- a sign is a lexeme of its own
    cases h with
    | numeral h => exact absurd (h.all '-' (by simp)) (by decide)
    | word h => exact absurd (h.2 '-' (by simp)) (by decide)
    | symbol h eq => exact absurd (List.append_eq_singleton_iff.mp eq) (by simp [hsome])

/-! ### Writing and reading again -/

/-- What is written without an exponent is a numeral, and what this is read as is written in the
same way. -/
theorem characters_numeralValue {x : Float}
    (h : ∀ c ∈ Layout.twelve.characters x, startsNumeral c = true) :
    (∃ q, Numeral (Layout.twelve.characters x) q) ∧
      Layout.twelve.characters (numeralValue (Layout.twelve.characters x)) =
        Layout.twelve.characters x := by
  rcases characters_cases h with hzero | ⟨s, hlow, hhigh, hs⟩
  · rw [hzero]
    exact ⟨⟨_, .whole (allDigits_zeros 1) (by simp)⟩, by rfl⟩
  · have hpos : 0 < s.coefficient := by omega
    have hcount := digitCount_of_mem hlow hhigh
    rw [hs] at h ⊢
    obtain ⟨hleast, hgreatest, hnumeral⟩ := numeral_decimal hpos h
    have hlow' : (10 : ℚ) ^ 11 ≤ s.coefficient := by exact_mod_cast hlow
    have hhigh' : (s.coefficient : ℚ) < 10 ^ 12 := by exact_mod_cast hhigh
    have hfine : (10 : ℚ) ^ (-15 : Int) ≤ 10 ^ s.exponent :=
      zpow_le_zpow_right₀ (by norm_num) (by omega)
    have hcoarse : (10 : ℚ) ^ s.exponent ≤ 1 :=
      zpow_le_one_of_nonpos₀ (by norm_num) (by omega)
    have hnormal : (2 : ℚ) ^ (-1021 : Int) ≤ s.coefficient * 10 ^ s.exponent := by
      calc (2 : ℚ) ^ (-1021 : Int) ≤ 2 ^ (-14 : Int) :=
            zpow_le_zpow_right₀ (by norm_num) (by norm_num)
        _ ≤ 10 ^ 11 * 10 ^ (-15 : Int) := by norm_num
        _ ≤ s.coefficient * 10 ^ s.exponent := by gcongr
    have hsmall : (s.coefficient * 10 ^ s.exponent : ℚ) < 2 ^ (1022 : Int) := by
      calc (s.coefficient * 10 ^ s.exponent : ℚ) ≤ s.coefficient * 1 := by gcongr
        _ < 2 ^ (40 : Int) := by
            rw [mul_one]
            refine hhigh'.trans_le ?_
            norm_num
        _ ≤ 2 ^ (1022 : Int) := zpow_le_zpow_right₀ (by norm_num) (by norm_num)
    obtain ⟨m, k, hdecoded, hnear⟩ :=
      (numeralValue_isNearest hnumeral).value_near hpos (by omega) (by omega) hnormal hsmall
    exact ⟨⟨_, hnumeral⟩, characters_of_near hlow hhigh hdecoded hnear⟩

end Scan
end CurveSketch
