import CurveSketch.Proofs.Slices
import CurveSketch.Proofs.StackSafety

/-!
# CurveSketch.Proofs.Extent

How much a text of a given length can become. The length limit is about the text as it was given,
but the scanner reads its lower case, which may be longer. Every token begins with a lexical
character of its own (`Scan.length_le_of_tokens`), and no character has more than one of them in its
lower case: U+0130 alone has two characters, and the second is a combining dot
(`Text.countP_lower_le`). So there are no more tokens than characters. An expression has fewer
instructions than twice its tokens (`Derives.length_lt`), hence a program is shorter than twice the
text (`Program.compile_length_lt`).
-/

namespace CurveSketch
namespace Text

section Lower

variable {p : Char → Bool} (hdot : p '\u0307' = false)

include hdot

/-- Of the lower case of one character at most one character counts, if the dot that U+0130 leaves
behind does not. -/
theorem countP_lowerChar_le (c : Char) : (lowerChar c).countP p ≤ 1 := by
  unfold lowerChar
  split
  · calc ['i', '\u0307'].countP p = ['i'].countP p := by simp [List.countP_cons, hdot]
      _ ≤ 1 := List.countP_le_length
  · exact List.countP_le_length

theorem countP_lowerFrom_le (before : Bool) (cs : List Char) :
    (lowerFrom before cs).countP p ≤ cs.length := by
  induction cs generalizing before with
  | nil => simp [lowerFrom]
  | cons c rest ih =>
    have htail := ih (letterPrecedes before c)
    rw [List.length_cons]
    unfold lowerFrom
    split
    · -- whichever sigma it becomes, it is one character
      generalize (if before && !letterFollows rest then '\u03c2' else '\u03c3') = sigma
      rw [List.countP_cons]
      split <;> omega
    · have hhead := countP_lowerChar_le hdot c
      rw [List.countP_append]
      omega

theorem countP_lower_le (cs : List Char) : (lower cs).countP p ≤ cs.length :=
  countP_lowerFrom_le hdot false cs

end Lower
end Text

namespace Scan

instance (c : Char) : Decidable (Lexical c) :=
  inferInstanceAs (Decidable (_ ∨ _ ∨ _))

theorem lexical_of_lexemeLength {c : Char} {rest : List Char}
    (h : lexemeLength (c :: rest) ≠ 0) : Lexical c := by
  obtain ⟨w, hp, hw, -⟩ := exists_lexeme h
  obtain ⟨d, tail, rfl, -, hd⟩ := hw.first
  rw [← (List.cons_prefix_cons.mp hp).1]
  exact hd

/-- There are no more tokens than lexical characters, as every token begins with one. -/
theorem length_le_of_tokens {mode : LexMode} {position skip : Nat} {cs : List Char}
    {ts : List Token} (h : tokens mode position skip cs = .ok ts) :
    ts.length ≤ cs.countP fun c => decide (Lexical c) := by
  induction cs generalizing position skip ts with
  | nil =>
    cases h
    exact Nat.le_refl 0
  | cons c rest ih =>
    -- unless a token begins here, the rest has all of them
    have hrest {skip : Nat} (hus : tokens mode (position + 1) skip rest = .ok ts) :
        ts.length ≤ (c :: rest).countP fun c => decide (Lexical c) := by
      rw [List.countP_cons]
      exact Nat.le_add_right_of_le (ih hus)
    cases skip with
    | succ skip => exact hrest h
    | zero =>
      simp only [tokens] at h
      split at h
      · exact hrest h
      · split at h
        · split at h
          · cases h
          · exact hrest h
        · rename_i length hlength
          split at h
          · cases h
          · rename_i us hus
            cases h
            have hsome : lexemeLength (c :: rest) ≠ 0 := by rw [hlength]; exact Nat.succ_ne_zero _
            have hlexical := lexical_of_lexemeLength hsome
            rw [List.countP_cons, if_pos (decide_eq_true hlexical), List.length_cons]
            exact Nat.succ_le_succ (ih hus)

end Scan

theorem length_le_of_tokenize {mode : LexMode} {limit : Int} {text : String} {ts : List Token}
    (h : tokenize mode limit text = .ok ts) : ts.length ≤ text.toList.length := by
  have hdot : decide (Scan.Lexical '\u0307') = false := by decide
  calc ts.length ≤ (Text.lower text.toList).countP fun c => decide (Scan.Lexical c) :=
        Scan.length_le_of_tokens (tokenize_eq_ok.mp h).2
    _ ≤ text.toList.length := Text.countP_lower_le hdot text.toList

/-- An expression has fewer instructions than twice its tokens. Each rule makes one instruction of its
own at most; where it has no token for it, as the understood product, it joins two operands. -/
theorem Derives.length_lt {level : Level} {ts : List Token} {e : Expr} (h : Derives level ts e) :
    e.instructions.length < 2 * ts.length := by
  induction h with
  | ofProduct h ih | ofFactor h ih | ofPower h ih | ofAtom h ih => exact ih
  | sum | product | power | implicit | neg | number | var | call | group =>
    simp only [Expr.instructions, List.length_append, List.length_cons, List.length_nil]
    omega

namespace Program

/-- A text has no more tokens than characters, and its program, if it has one, is shorter than
twice the text. Neither depends on how long the text is in lower case. -/
theorem compile_length_lt (mode : LexMode) (limit : Int) (text : String) :
    (∀ ts, tokenize mode limit text = .ok ts → ts.length ≤ text.toList.length) ∧
    ∀ p, compile mode limit text = .ok p → p.length < 2 * text.toList.length := by
  refine ⟨fun ts h => length_le_of_tokenize h, ?_⟩
  intro p hp
  obtain ⟨ts, e, hts, hderives, hlisting⟩ := derives_of_compile hp
  calc p.length = e.instructions.length := by rw [length, hlisting]
    _ < 2 * ts.length := hderives.length_lt
    _ ≤ 2 * text.toList.length := Nat.mul_le_mul_left 2 (length_le_of_tokenize hts)

/-- `pİx2` in lenient mode has four characters, and five in lower case. The constant, `x` and `2`
are three tokens, with two products understood between them. -/
theorem compile_length_lt_dotted :
    (Text.lower "p\u0130x2".toList).length = 5 ∧
    (∃ ts, tokenize .lenient 4 "p\u0130x2" = .ok ts ∧ ts.length = 3 ∧ ts.length ≤ 4) ∧
    ∃ p, compile .lenient 4 "p\u0130x2" = .ok p ∧ p.length = 5 ∧ p.length < 8 := by
  obtain ⟨htokens, hprogram⟩ := compile_length_lt .lenient 4 "p\u0130x2"
  have hts : tokenize .lenient 4 "p\u0130x2" =
      .ok [⟨.number (Float.ofBits 0x400921FB54442D18), 0⟩, ⟨.var, 3⟩, ⟨.number 2, 4⟩] := rfl
  have hp : compile .lenient 4 "p\u0130x2" = .ok ⟨[.const (Float.ofBits 0x400921FB54442D18), .var,
      .apply (.binary .mul), .const 2, .apply (.binary .mul)], "p\u0130x2"⟩ := rfl
  exact ⟨by decide +kernel, ⟨_, hts, rfl, htokens _ hts⟩, _, hp, rfl, hprogram _ hp⟩

end Program
end CurveSketch
