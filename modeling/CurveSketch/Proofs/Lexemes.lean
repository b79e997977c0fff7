import CurveSketch.Proofs.Conversion
import CurveSketch.Token.Scan

/-!
# CurveSketch.Proofs.Lexemes

What the lexemes are and what each one says. Numerals, words and symbols are described as
languages, a numeral together with the number that it writes; the scanner's lengths are then the
longest prefixes in these languages (`longest_iff`), and its reading of a slice is the one of the
description (`spells_lexeme`).
-/

namespace CurveSketch
namespace Scan

open Decimal

def AllDigits (cs : List Char) : Prop :=
  ∀ c ∈ cs, c.isDigit = true

/-- The natural number that a run of digits writes, the first digit the most significant. -/
def decimalValue (cs : List Char) : Nat :=
  Nat.ofDigits 10 (cs.reverse.map digit)

/-- The numeric literals and the number that each one writes: digits, or digits around a point
with at least one of them. -/
inductive Numeral : List Char → ℚ → Prop where
  | whole {ds} (digits : AllDigits ds) (some : ds ≠ []) : Numeral ds (decimalValue ds)
  | point {ds fs} (digits : AllDigits ds) (fraction : AllDigits fs) (some : ds ≠ [] ∨ fs ≠ []) :
    Numeral (ds ++ '.' :: fs) (decimalValue ds + decimalValue fs / 10 ^ fs.length)

def IsWord (cs : List Char) : Prop :=
  cs ≠ [] ∧ ∀ c ∈ cs, isLetter c = true

inductive IsLexeme (cs : List Char) : Prop where
  | numeral {q} (h : Numeral cs q)
  | word (h : IsWord cs)
  | symbol {c} (h : isSymbol c = true) (eq : cs = [c])

/-- `w` is the longest lexeme at the start of `cs`. -/
structure Longest (cs w : List Char) : Prop where
  starts : w <+: cs
  lexeme : IsLexeme w
  longest : ∀ v, v <+: cs → IsLexeme v → v.length ≤ w.length

/-- What a slice of the text is read as: its kind and its value. -/
inductive Spells : List Char → Lexeme → Prop where
  | number {cs q x} (h : Numeral cs q) (nearest : IsNearest q x) : Spells cs (.number x)
  | var : Spells variableName.toList .var
  | constant {name x} (h : (name, x) ∈ constants) : Spells name.toList (.number x)
  | function {name : String} (h : IsWord name.toList) (var : name ≠ variableName)
      (constant : ∀ entry ∈ constants, name ≠ entry.1) : Spells name.toList (.function name)
  | leftParen : Spells ['('] .leftParen
  | rightParen : Spells [')'] .rightParen
  | operator {c} (h : c ∈ ['+', '-', '*', '/', '^']) :
    Spells [c] (.operator (String.ofList [c]))

/-! ### The value of a numeral -/

theorem ofDigits_eq (digits : List Nat) :
    Decimal.ofDigits digits = Nat.ofDigits 10 digits.reverse := by
  rw [Decimal.ofDigits, Nat.ofDigits_eq_foldr, List.foldr_reverse]
  congr 1
  funext value digit
  simp [Nat.add_comm]

theorem ofDigits_append (ds fs : List Char) :
    Decimal.ofDigits ((ds ++ fs).map digit) =
      decimalValue ds * 10 ^ fs.length + decimalValue fs := by
  rw [ofDigits_eq, List.map_append, List.reverse_append, Nat.ofDigits_append]
  simp only [decimalValue, List.map_reverse, List.length_reverse, List.length_map]
  ring

theorem decimalValue_append (ds fs : List Char) :
    decimalValue (ds ++ fs) = decimalValue ds * 10 ^ fs.length + decimalValue fs := by
  simp only [decimalValue, List.reverse_append, List.map_append, Nat.ofDigits_append,
    List.length_map, List.length_reverse]
  ring

theorem decimalValue_zeros (n : Nat) : decimalValue (List.replicate n '0') = 0 := by
  induction n with
  | zero => rfl
  | succ n ih =>
    rw [List.replicate_succ', decimalValue_append, ih]
    rfl

theorem allDigits_zeros (n : Nat) : AllDigits (List.replicate n '0') := by
  intro c hc
  rw [List.eq_of_mem_replicate hc]
  rfl

theorem takeWhile_digits {ds rest : List Char} (hds : AllDigits ds)
    (hrest : ∀ c ∈ rest.head?, c.isDigit = false) :
    (ds ++ rest).takeWhile Char.isDigit = ds := by
  rw [List.takeWhile_append_of_pos hds]
  cases rest with
  | nil => simp
  | cons c tail => simp [hrest c rfl]

theorem dropWhile_digits {ds rest : List Char} (hds : AllDigits ds)
    (hrest : ∀ c ∈ rest.head?, c.isDigit = false) :
    (ds ++ rest).dropWhile Char.isDigit = rest := by
  rw [List.dropWhile_append_of_pos hds]
  cases rest with
  | nil => rfl
  | cons c tail => simp [hrest c rfl]

theorem numeralValue_isNearest {cs : List Char} {q : ℚ} (h : Numeral cs q) :
    IsNearest q (numeralValue cs) := by
  cases h with
  | whole digits some =>
    have hend : ∀ c ∈ ([] : List Char).head?, c.isDigit = false := by simp
    have hnear := Scientific.toFloat_isNearest ⟨Decimal.ofDigits ((cs ++ []).map digit), 0⟩
    have htake := takeWhile_digits digits hend
    have hdrop := dropWhile_digits digits hend
    rw [List.append_nil] at htake hdrop
    unfold numeralValue
    rw [htake, hdrop]
    have hvalue : (decimalValue cs : ℚ) =
        Scientific.value ⟨Decimal.ofDigits ((cs ++ []).map digit), 0⟩ := by
      rw [Scientific.value, ofDigits_append]
      simp [decimalValue]
    rw [hvalue]
    exact hnear
  | @point ds fs digits fraction some =>
    have hpoint : ∀ c ∈ ('.' :: fs).head?, c.isDigit = false := by simp
    have hnear := Scientific.toFloat_isNearest
      ⟨Decimal.ofDigits ((ds ++ fs).map digit), -fs.length⟩
    unfold numeralValue
    rw [takeWhile_digits digits hpoint, dropWhile_digits digits hpoint]
    have hvalue : (decimalValue ds + decimalValue fs / 10 ^ fs.length : ℚ) =
        Scientific.value ⟨Decimal.ofDigits ((ds ++ fs).map digit), -fs.length⟩ := by
      rw [Scientific.value, ofDigits_append, zpow_neg, zpow_natCast]
      push_cast
      field_simp
    rw [hvalue]
    exact hnear

/-! ### The first character of a lexeme -/

theorem isDigit_iff (c : Char) : c.isDigit = true ↔ 48 ≤ c.toNat ∧ c.toNat ≤ 57 := by
  simp only [Char.isDigit, ge_iff_le, Bool.and_eq_true, decide_eq_true_eq,
    UInt32.le_iff_toNat_le]
  rfl

theorem isLetter_iff (c : Char) : isLetter c = true ↔ 97 ≤ c.toNat ∧ c.toNat ≤ 122 := by
  simp only [isLetter, Char.le_def, Bool.and_eq_true, decide_eq_true_eq,
    UInt32.le_iff_toNat_le]
  rfl

theorem isSymbol_iff (c : Char) : isSymbol c = true ↔
    c ∈ ['+', '-', '*', '/', '^', '(', ')'] := by
  simp [isSymbol, or_assoc]

def startsNumeral (c : Char) : Bool :=
  c.isDigit || c == '.'

theorem Numeral.first {cs : List Char} {q : ℚ} (h : Numeral cs q) :
    ∃ c rest, cs = c :: rest ∧ startsNumeral c = true := by
  cases h with
  | whole digits some =>
    cases cs with
    | nil => exact absurd rfl some
    | cons c rest => exact ⟨c, rest, rfl, by simp [startsNumeral, digits c (by simp)]⟩
  | @point ds fs digits fraction some =>
    cases ds with
    | nil => exact ⟨'.', fs, rfl, rfl⟩
    | cons c rest =>
      exact ⟨c, rest ++ '.' :: fs, rfl, by simp [startsNumeral, digits c (by simp)]⟩

theorem IsWord.first {cs : List Char} (h : IsWord cs) :
    ∃ c rest, cs = c :: rest ∧ isLetter c = true := by
  cases cs with
  | nil => exact absurd rfl h.1
  | cons c rest => exact ⟨c, rest, rfl, h.2 c (by simp)⟩

theorem startsNumeral_range {c : Char} (h : startsNumeral c = true) :
    46 ≤ c.toNat ∧ c.toNat ≤ 57 ∧ c.toNat ≠ 47 := by
  simp only [startsNumeral, Bool.or_eq_true, isDigit_iff, beq_iff_eq] at h
  rcases h with h | rfl
  · omega
  · decide

theorem isSymbol_range {c : Char} (h : isSymbol c = true) :
    (40 ≤ c.toNat ∧ c.toNat ≤ 47 ∧ c.toNat ≠ 46) ∨ c.toNat = 94 := by
  simp only [isSymbol_iff, List.mem_cons, List.not_mem_nil, or_false] at h
  rcases h with rfl | rfl | rfl | rfl | rfl | rfl | rfl <;> decide

theorem isBlank_range {c : Char} (h : Text.isBlank c = true) : c.toNat ≤ 32 ∨ 133 ≤ c.toNat := by
  simp only [Text.isBlank, Text.isWhiteSpace, Bool.or_eq_true, Bool.and_eq_true,
    decide_eq_true_eq, beq_iff_eq] at h
  omega

theorem not_isLetter_of_startsNumeral {c : Char} (h : startsNumeral c = true) :
    isLetter c = false := by
  rw [Bool.eq_false_iff, Ne, isLetter_iff]
  have := startsNumeral_range h
  omega

theorem not_isSymbol_of_startsNumeral {c : Char} (h : startsNumeral c = true) :
    isSymbol c = false := by
  rw [Bool.eq_false_iff]
  intro hsymbol
  have := startsNumeral_range h
  have := isSymbol_range hsymbol
  omega

theorem not_isSymbol_of_isLetter {c : Char} (h : isLetter c = true) : isSymbol c = false := by
  rw [Bool.eq_false_iff]
  intro hsymbol
  have := (isLetter_iff c).mp h
  have := isSymbol_range hsymbol
  omega

theorem IsLexeme.first {cs : List Char} (h : IsLexeme cs) :
    ∃ c rest, cs = c :: rest ∧ Text.isBlank c = false ∧
      (startsNumeral c = true ∨ isLetter c = true ∨ isSymbol c = true) := by
  have hblank {c : Char}
      (hc : startsNumeral c = true ∨ isLetter c = true ∨ isSymbol c = true) :
      Text.isBlank c = false := by
    rw [Bool.eq_false_iff]
    intro hblank
    have := isBlank_range hblank
    rcases hc with hc | hc | hc
    · have := startsNumeral_range hc
      omega
    · have := (isLetter_iff c).mp hc
      omega
    · have := isSymbol_range hc
      omega
  cases h with
  | numeral h =>
    obtain ⟨c, rest, rfl, hc⟩ := h.first
    exact ⟨c, rest, rfl, hblank (.inl hc), .inl hc⟩
  | word h =>
    obtain ⟨c, rest, rfl, hc⟩ := h.first
    exact ⟨c, rest, rfl, hblank (.inr (.inl hc)), .inr (.inl hc)⟩
  | symbol h eq => exact ⟨_, [], eq, hblank (.inr (.inr h)), .inr (.inr h)⟩

/-! ### The lengths of the scanner -/

theorem numeral_length_le {cs w : List Char} {q : ℚ} (hw : Numeral w q) (hp : w <+: cs) :
    w.length ≤ numeralLength cs := by
  obtain ⟨tail, rfl⟩ := hp
  cases hw with
  | whole digits some =>
    have hpos : 0 < w.length := List.length_pos_of_ne_nil some
    unfold numeralLength
    rw [List.takeWhile_append_of_pos digits, List.dropWhile_append_of_pos digits]
    simp only [List.length_append]
    split
    · rw [if_neg (by simp only [Bool.and_eq_true, beq_iff_eq]; omega)]
      omega
    · omega
  | @point ds fs digits fraction some =>
    have hpoint : ∀ c ∈ ('.' :: (fs ++ tail)).head?, c.isDigit = false := by simp
    have hlength : 0 < ds.length + fs.length := by
      rcases some with hds | hfs
      · have := List.length_pos_of_ne_nil hds
        omega
      · have := List.length_pos_of_ne_nil hfs
        omega
    unfold numeralLength
    rw [List.append_assoc, List.cons_append, takeWhile_digits digits hpoint,
      dropWhile_digits digits hpoint]
    simp only [List.takeWhile_append_of_pos fraction, List.length_append, List.length_cons]
    rw [if_neg (by simp only [Bool.and_eq_true, beq_iff_eq]; omega)]
    omega

theorem exists_numeral {cs : List Char} (h : numeralLength cs ≠ 0) :
    ∃ w q, w <+: cs ∧ Numeral w q ∧ w.length = numeralLength cs := by
  have hdigits : AllDigits (cs.takeWhile Char.isDigit) := fun c hc => List.mem_takeWhile_imp hc
  unfold numeralLength at h ⊢
  split at h
  case h_1 rest hrest =>
    have hfraction : AllDigits (rest.takeWhile Char.isDigit) :=
      fun c hc => List.mem_takeWhile_imp hc
    dsimp only at h ⊢
    split at h
    case isTrue hnone => exact absurd rfl h
    case isFalse hsome =>
      have hsome : cs.takeWhile Char.isDigit ≠ [] ∨ rest.takeWhile Char.isDigit ≠ [] := by
        simpa only [Bool.and_eq_true, beq_iff_eq, List.length_eq_zero_iff, not_and_or] using hsome
      refine ⟨_, _, ?_, .point hdigits hfraction hsome, ?_⟩
      · refine ⟨rest.dropWhile Char.isDigit, ?_⟩
        rw [List.append_assoc, List.cons_append, List.takeWhile_append_dropWhile, ← hrest,
          List.takeWhile_append_dropWhile]
      · rw [if_neg (by simpa only [Bool.and_eq_true, beq_iff_eq, List.length_eq_zero_iff,
          not_and_or] using hsome), List.length_append, List.length_cons]
        omega
  case h_2 hrest =>
    exact ⟨_, _, List.takeWhile_prefix _, .whole hdigits (by simpa using h), rfl⟩

theorem word_length_le {cs w : List Char} (hw : IsWord w) (hp : w <+: cs) :
    w.length ≤ wordLength cs := by
  obtain ⟨tail, rfl⟩ := hp
  rw [wordLength, List.takeWhile_append_of_pos hw.2, List.length_append]
  omega

theorem exists_word {cs : List Char} (h : wordLength cs ≠ 0) :
    ∃ w, w <+: cs ∧ IsWord w ∧ w.length = wordLength cs := by
  refine ⟨cs.takeWhile isLetter, List.takeWhile_prefix _, ⟨?_, ?_⟩, rfl⟩
  · exact fun hnil => h (by rw [wordLength, hnil, List.length_nil])
  · exact fun c hc => List.mem_takeWhile_imp hc

theorem exists_symbol {cs : List Char} (h : symbolLength cs ≠ 0) :
    ∃ c, [c] <+: cs ∧ isSymbol c = true ∧ symbolLength cs = 1 := by
  cases cs with
  | nil => exact absurd rfl h
  | cons c rest =>
    by_cases hc : isSymbol c = true
    · exact ⟨c, ⟨rest, rfl⟩, hc, if_pos hc⟩
    · exact absurd (if_neg hc) h

theorem exists_lexeme {cs : List Char} (h : lexemeLength cs ≠ 0) :
    ∃ w, w <+: cs ∧ IsLexeme w ∧ w.length = lexemeLength cs := by
  unfold lexemeLength at h ⊢
  split
  case isTrue hnumeral =>
    obtain ⟨w, q, hp, hw, hlength⟩ := exists_numeral hnumeral
    exact ⟨w, hp, .numeral hw, hlength⟩
  case isFalse hnumeral =>
    rw [if_neg hnumeral] at h
    split
    case isTrue hword =>
      obtain ⟨w, hp, hw, hlength⟩ := exists_word hword
      exact ⟨w, hp, .word hw, hlength⟩
    case isFalse hword =>
      rw [if_neg hword] at h
      obtain ⟨c, hp, hc, hlength⟩ := exists_symbol h
      exact ⟨[c], hp, .symbol hc rfl, hlength.symm⟩

theorem lexemeLength_le (cs : List Char) : lexemeLength cs ≤ cs.length := by
  by_cases h : lexemeLength cs = 0
  · omega
  · obtain ⟨w, hp, -, hlength⟩ := exists_lexeme h
    rw [← hlength]
    exact hp.length_le

theorem first_unique {c d : Char} {v w cs : List Char} (hv : c :: v <+: cs)
    (hw : d :: w <+: cs) : c = d := by
  obtain ⟨_, rfl⟩ := hv
  exact (List.cons_prefix_cons.mp hw).1.symm

/-- The three kinds of lexemes begin with different characters, so the first kind that matches is
the only one. -/
theorem lexeme_length_le {cs w : List Char} (hw : IsLexeme w) (hp : w <+: cs) :
    w.length ≤ lexemeLength cs := by
  have hnonempty : 0 < w.length := by
    obtain ⟨c, rest, rfl, -⟩ := hw.first
    exact Nat.succ_pos _
  have hnot_numeral {c : Char} {rest : List Char} (hfirst : w = c :: rest)
      (hc : startsNumeral c = false) : numeralLength cs = 0 := by
    by_contra hnumeral
    obtain ⟨v, q, hv, hq, -⟩ := exists_numeral hnumeral
    obtain ⟨d, rest', rfl, hd⟩ := hq.first
    rw [hfirst] at hp
    rw [first_unique hp hv, hd] at hc
    cases hc
  unfold lexemeLength
  cases hw with
  | numeral h =>
    have := numeral_length_le h hp
    rw [if_pos (by omega)]
    exact this
  | word h =>
    obtain ⟨c, rest, hfirst, hc⟩ := h.first
    have hnumeral : startsNumeral c = false := by
      by_contra hd
      rw [not_isLetter_of_startsNumeral (by simpa using hd)] at hc
      cases hc
    have := word_length_le h hp
    rw [if_neg (by simpa using hnot_numeral hfirst hnumeral), if_pos (by omega)]
    exact this
  | @symbol c h eq =>
    subst eq
    have hnumeral : startsNumeral c = false := by
      by_contra hd
      rw [not_isSymbol_of_startsNumeral (by simpa using hd)] at h
      cases h
    have hword : wordLength cs = 0 := by
      by_contra hword
      obtain ⟨v, hv, hletters, -⟩ := exists_word hword
      obtain ⟨d, rest, rfl, hd⟩ := hletters.first
      rw [first_unique hp hv, not_isSymbol_of_isLetter hd] at h
      cases h
    rw [if_neg (by simpa using hnot_numeral rfl hnumeral), if_neg (by simpa using hword)]
    obtain ⟨tail, rfl⟩ := hp
    simp [symbolLength, h]

/-- The scanner takes the longest lexeme, and takes one where there is one. -/
theorem longest_iff {cs w : List Char} :
    Longest cs w ↔ lexemeLength cs ≠ 0 ∧ w = cs.take (lexemeLength cs) := by
  constructor
  · intro h
    have hle := lexeme_length_le h.lexeme h.starts
    obtain ⟨c, rest, hfirst, -⟩ := h.lexeme.first
    have hsome : lexemeLength cs ≠ 0 := by
      rw [hfirst, List.length_cons] at hle
      omega
    obtain ⟨v, hp, hv, hlength⟩ := exists_lexeme hsome
    have hge := h.longest v hp hv
    refine ⟨hsome, ?_⟩
    rw [List.prefix_iff_eq_take.mp h.starts]
    congr 1
    omega
  · rintro ⟨hsome, rfl⟩
    obtain ⟨v, hp, hv, hlength⟩ := exists_lexeme hsome
    have htake : cs.take (lexemeLength cs) = v := by
      rw [← hlength]
      exact (List.prefix_iff_eq_take.mp hp).symm
    rw [htake]
    refine ⟨hp, hv, fun u hu hlexeme => ?_⟩
    rw [hlength]
    exact lexeme_length_le hlexeme hu

theorem lexemeLength_eq_zero_iff {cs : List Char} :
    lexemeLength cs = 0 ↔ ∀ w, w <+: cs → ¬ IsLexeme w := by
  constructor
  · intro hzero w hp hw
    have := lexeme_length_le hw hp
    obtain ⟨c, rest, rfl, -⟩ := hw.first
    rw [List.length_cons] at this
    omega
  · intro hnone
    by_contra hsome
    obtain ⟨w, hp, hw, -⟩ := exists_lexeme hsome
    exact hnone w hp hw

/-! ### The reading of a lexeme -/

theorem spells_symbolLexeme {c : Char} (h : isSymbol c = true) :
    Spells [c] (symbolLexeme c) := by
  rw [isSymbol_iff] at h
  simp only [List.mem_cons, List.not_mem_nil, or_false] at h
  rcases h with rfl | rfl | rfl | rfl | rfl | rfl | rfl
  case inr.inr.inr.inr.inr.inl => exact .leftParen
  case inr.inr.inr.inr.inr.inr => exact .rightParen
  all_goals exact .operator (by decide)

theorem spells_wordLexeme {word : String} (h : IsWord word.toList) :
    Spells word.toList (wordLexeme word) := by
  unfold wordLexeme
  split
  case isTrue hvar =>
    rw [beq_iff_eq.mp hvar]
    exact .var
  case isFalse hvar =>
    split
    case h_1 entry hfound =>
      have hname : entry.1 = word := by simpa using List.find?_some hfound
      rw [← hname]
      exact .constant (List.mem_of_find?_eq_some hfound)
    case h_2 hfound =>
      refine .function h (by simpa using hvar) fun entry hentry heq => ?_
      have := List.find?_eq_none.mp hfound entry hentry
      simp [heq] at this

theorem spells_lexeme {first : Char} {others : List Char} (h : IsLexeme (first :: others)) :
    Spells (first :: others) (lexeme first others) := by
  unfold lexeme
  cases h with
  | numeral h =>
    obtain ⟨c, rest, heq, hc⟩ := h.first
    cases heq
    rw [not_isSymbol_of_startsNumeral hc, not_isLetter_of_startsNumeral hc]
    exact .number h (numeralValue_isNearest h)
  | word h =>
    have hletter : isLetter first = true := h.2 first (by simp)
    rw [not_isSymbol_of_isLetter hletter, hletter]
    have hword : IsWord (String.ofList (first :: others)).toList := by simpa using h
    simpa using spells_wordLexeme hword
  | symbol h eq =>
    cases eq
    rw [h]
    exact spells_symbolLexeme h

end Scan
end CurveSketch
