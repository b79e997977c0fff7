import CurveSketch.Proofs.Casing
import CurveSketch.Proofs.Difference
import CurveSketch.Proofs.Lexemes

/-!
# CurveSketch.Proofs.Slices

Every token is read from a slice of the text that is a lexeme, whichever mode the scan is in
(`readFrom_of_tokens`). A numeral has no more characters than the text that it was found in, even
where lower case made that text longer, so in a text within reach of the doubles no numeral is too
large for one (`isFinite_of_tokenize`).
-/

namespace CurveSketch
namespace Scan

open Decimal

/-! ### The characters of a lexeme -/

/-- A character that can stand in a lexeme. -/
def Lexical (c : Char) : Prop :=
  startsNumeral c = true ∨ isLetter c = true ∨ isSymbol c = true

theorem Lexical.not_isBlank {c : Char} (h : Lexical c) : Text.isBlank c = false := by
  rw [Bool.eq_false_iff]
  intro hblank
  have := isBlank_range hblank
  rcases h with h | h | h
  · have := startsNumeral_range h
    omega
  · have := (isLetter_iff c).mp h
    omega
  · have := isSymbol_range h
    omega

theorem Lexical.range {c : Char} (h : Lexical c) :
    c.toNat < 0xC0 ∧ (c.toNat < 0x41 ∨ 0x5A < c.toNat) := by
  rcases h with h | h | h
  · have := startsNumeral_range h
    omega
  · have := (isLetter_iff c).mp h
    omega
  · have := isSymbol_range h
    omega

theorem Lexical.settled {c : Char} (h : Lexical c) : Text.Settled c :=
  Text.settled_of_small h.range.1 h.range.2

/-- A character of a text that strict scanning accepts. -/
def Accepted (c : Char) : Prop :=
  Text.isBlank c = true ∨ Lexical c

theorem Accepted.settled {c : Char} (h : Accepted c) : Text.Settled c :=
  h.elim Text.settled_of_isBlank Lexical.settled

theorem Accepted.small {c : Char} (h : Accepted c) (hblank : Text.isBlank c = false) :
    c.toNat < 0xC0 := by
  rcases h with h | h
  · rw [hblank] at h
    cases h
  · exact h.range.1

theorem Numeral.all {cs : List Char} {q : ℚ} (h : Numeral cs q) :
    ∀ c ∈ cs, startsNumeral c = true := by
  intro c hc
  cases h with
  | whole digits some => simp [startsNumeral, digits c hc]
  | point digits fraction some =>
    rcases List.mem_append.mp hc with hc | hc
    · simp [startsNumeral, digits c hc]
    · rcases List.mem_cons.mp hc with rfl | hc
      · rfl
      · simp [startsNumeral, fraction c hc]

theorem IsLexeme.all {w : List Char} (h : IsLexeme w) : ∀ c ∈ w, Lexical c := by
  intro c hc
  cases h with
  | numeral h => exact .inl (h.all c hc)
  | word h => exact .inr (.inl (h.2 c hc))
  | symbol h eq =>
    rw [eq, List.mem_singleton] at hc
    rw [hc]
    exact .inr (.inr h)

theorem IsLexeme.not_isBlank {w : List Char} (h : IsLexeme w) {c : Char} (hc : c ∈ w) :
    Text.isBlank c = false :=
  (h.all c hc).not_isBlank

/-! ### Tokens and slices -/

/-- The token is what some slice of the text is read as. -/
def ReadFrom (cs : List Char) (t : Token) : Prop :=
  ∃ c others, (c :: others) <:+: cs ∧ IsLexeme (c :: others) ∧ t.lexeme = lexeme c others

theorem longest_of_lexemeLength {c : Char} {rest : List Char} {length : Nat}
    (h : lexemeLength (c :: rest) = length + 1) :
    Longest (c :: rest) (c :: rest.take length) := by
  rw [longest_iff, h]
  exact ⟨Nat.succ_ne_zero length, rfl⟩

theorem isLexeme_of_sliceAt {cs : List Char} {i : Nat} (h : sliceAt cs i ≠ []) :
    IsLexeme (sliceAt cs i) := by
  have hsome : lexemeLength (cs.drop i) ≠ 0 := by
    intro hzero
    rw [sliceAt, hzero] at h
    exact h rfl
  exact (longest_iff.mpr ⟨hsome, rfl⟩).lexeme

theorem sliceAt_infix (cs : List Char) (i : Nat) : sliceAt cs i <:+: cs :=
  (List.take_prefix _ _).isInfix.trans (List.drop_suffix i cs).isInfix

theorem readFrom_of_tokens {mode : LexMode} {position skip : Nat} {cs : List Char}
    {ts : List Token} (h : tokens mode position skip cs = .ok ts) : ∀ t ∈ ts, ReadFrom cs t := by
  intro t ht
  obtain ⟨i, c, others, -, hslice, hread⟩ := slice_of_tokens h t ht
  have hlexeme : IsLexeme (sliceAt cs i) := isLexeme_of_sliceAt (by simp [hslice])
  exact ⟨c, others, hslice ▸ sliceAt_infix cs i, hslice ▸ hlexeme, hread⟩

/-! ### The size of a numeral -/

theorem decimalValue_lt (ds : List Char) (h : AllDigits ds) : decimalValue ds < 10 ^ ds.length := by
  have hdigits : ∀ d ∈ ds.reverse.map digit, d < 10 := by
    intro d hd
    obtain ⟨c, hc, rfl⟩ := List.mem_map.mp hd
    have := (isDigit_iff c).mp (h c (List.mem_reverse.mp hc))
    show c.toNat - 48 < 10
    omega
  have := Nat.ofDigits_lt_base_pow_length (by decide) hdigits
  simpa [decimalValue] using this

theorem Numeral.lt_pow {cs : List Char} {q : ℚ} (h : Numeral cs q) : q < 10 ^ cs.length := by
  cases h with
  | whole digits some => exact_mod_cast decimalValue_lt cs digits
  | @point ds fs digits fraction some =>
    have hwhole : (decimalValue ds + 1 : ℚ) ≤ 10 ^ ds.length := by
      exact_mod_cast decimalValue_lt ds digits
    have hfraction : (decimalValue fs / 10 ^ fs.length : ℚ) < 1 := by
      rw [div_lt_one (by positivity)]
      exact_mod_cast decimalValue_lt fs fraction
    calc (decimalValue ds + decimalValue fs / 10 ^ fs.length : ℚ) < 10 ^ ds.length := by linarith
      _ ≤ 10 ^ (ds ++ '.' :: fs).length :=
          pow_le_pow_right₀ (by norm_num) (by rw [List.length_append]; omega)

/-- A numeral in the lower case of a text has all its characters in the text itself. -/
theorem Numeral.length_le {text w : List Char} {q : ℚ} (h : Numeral w q)
    (hslice : w <:+: Text.lower text) : w.length ≤ text.length := by
  have hbelow : ∀ c, startsNumeral c = true → c.toNat < 0x41 := by
    intro c hc
    have := startsNumeral_range hc
    omega
  calc w.length = (w.filter startsNumeral).length := by
        rw [List.filter_eq_self.mpr h.all]
    _ ≤ ((Text.lower text).filter startsNumeral).length :=
        (hslice.sublist.filter startsNumeral).length_le
    _ = (text.filter startsNumeral).length := by rw [Text.filter_lower hbelow]
    _ ≤ text.length := List.length_filter_le _ _

theorem pow_308_lt : 10 ^ 308 < (2 ^ 54 - 1) * 2 ^ 970 := by decide +kernel

theorem overflow_eq_natCast : overflow = ((2 ^ 54 - 1) * 2 ^ 970 : Nat) := by
  rw [Nat.cast_mul, Nat.cast_pow, Nat.cast_sub Nat.one_le_two_pow, Nat.cast_pow, Nat.cast_one]
  rfl

theorem pow_308_lt_overflow : (10 : ℚ) ^ 308 < overflow := by
  have hbound : ((10 ^ 308 : Nat) : ℚ) < ((2 ^ 54 - 1) * 2 ^ 970 : Nat) :=
    Nat.cast_lt.mpr pow_308_lt
  rw [Nat.cast_pow] at hbound
  rw [overflow_eq_natCast]
  exact hbound

theorem isFinite_of_mem_constants {name : String} {x : Float} (h : (name, x) ∈ constants) :
    x.isFinite = true := by
  simp only [constants, List.mem_cons, Prod.mk.injEq, List.not_mem_nil, or_false] at h
  rcases h with ⟨-, rfl⟩ | ⟨-, rfl⟩ <;> rfl

/-- What is read from a text of at most 308 characters is no infinite number. -/
theorem ReadFrom.isFinite {text : List Char} {t : Token} {x : Float}
    (h : ReadFrom (Text.lower text) t) (hx : t.lexeme = .number x) (hlength : text.length ≤ 308) :
    x.isFinite = true := by
  obtain ⟨c, others, hslice, hlexeme, hread⟩ := h
  have hspells := spells_lexeme hlexeme
  rw [← hread, hx] at hspells
  generalize hw : c :: others = w at hslice hspells
  cases hspells with
  | @number _ q _ hnumeral hnearest =>
    have hcount : w.length ≤ 308 := (hnumeral.length_le hslice).trans hlength
    refine hnearest.isFinite_iff.mpr ?_
    calc q < 10 ^ w.length := hnumeral.lt_pow
      _ ≤ 10 ^ 308 := pow_le_pow_right₀ (by norm_num) hcount
      _ < overflow := pow_308_lt_overflow
  | constant hconstant => exact isFinite_of_mem_constants hconstant

end Scan

theorem readFrom_of_tokenize {mode : LexMode} {limit : Int} {text : String} {ts : List Token}
    (h : tokenize mode limit text = .ok ts) :
    text.toList.length ≤ limit ∧ ∀ t ∈ ts, Scan.ReadFrom (Text.lower text.toList) t := by
  obtain ⟨hlength, htokens⟩ := tokenize_eq_ok.mp h
  exact ⟨hlength, Scan.readFrom_of_tokens htokens⟩

theorem isFinite_of_tokenize {mode : LexMode} {limit : Int} {text : String} {ts : List Token}
    (h : tokenize mode limit text = .ok ts) (hlimit : limit ≤ 308) {t : Token} (ht : t ∈ ts)
    {x : Float} (hx : t.lexeme = .number x) : x.isFinite = true := by
  obtain ⟨hlength, hread⟩ := readFrom_of_tokenize h
  exact (hread t ht).isFinite hx (by omega)

end CurveSketch
