import CurveSketch.Program
import CurveSketch.Proofs.Rendering

/-!
# CurveSketch.Proofs.Words

The text of a program determines the program, up to the digits of its constants that the text does
not show. The words of a text are separated by blanks and no word contains one, so they are found
again. The word of an operator, a function or the variable names that instruction (`named?`) and is
never the word of a constant (`named?_render`).
-/

namespace CurveSketch

open Decimal Scan

namespace Instruction

/-- The same instruction, except that two constants need to agree in their first twelve digits
only. -/
inductive Alike : Instruction → Instruction → Prop
  | const {v w : Float} (digits : Layout.twelve.render v = Layout.twelve.render w) :
      Alike (.const v) (.const w)
  | var : Alike .var .var
  | apply (op : Operator) : Alike (.apply op) (.apply op)
  | call (f : Function) : Alike (.call f) (.call f)

theorem Alike.text_eq {i j : Instruction} (h : i.Alike j) : i.text = j.text := by
  cases h with
  | const digits => exact digits
  | var | apply | call => rfl

/-- The instruction that is not a constant and has this word. -/
def named? (word : String) : Option Instruction :=
  if word = variableName then some .var
  else ((Operator.ofSymbol? word).map .apply).or ((Function.ofName? word).map .call)

/-! ### The words of constants -/

theorem exists_digit_or_word (x : Float) :
    (∃ c ∈ Layout.twelve.characters x, c.isDigit = true) ∨
      Layout.twelve.render x ∈ ["nan", "inf", "-nan", "-inf"] := by
  obtain ⟨sign, body, hx, hsign, hbody, -⟩ := characters_eq x
  rcases hbody with rfl | rfl | hwritten
  · right
    rw [Layout.render, hx]
    rcases hsign with rfl | rfl <;> decide
  · right
    rw [Layout.render, hx]
    rcases hsign with rfl | rfl <;> decide
  · left
    obtain ⟨c, rest, rfl, hc⟩ := hwritten.first
    exact ⟨c, by simp [hx], hc⟩

/-- A word without a digit, and none of those of the doubles without one. -/
def Verbal (word : String) : Prop :=
  word.toList.any Char.isDigit = false ∧ word ∉ ["nan", "inf", "-nan", "-inf"]

instance (word : String) : Decidable (Verbal word) :=
  inferInstanceAs (Decidable (_ ∧ _))

theorem Verbal.ne_render {word : String} (h : Verbal word) (x : Float) :
    word ≠ Layout.twelve.render x := by
  rintro rfl
  rcases exists_digit_or_word x with ⟨c, hc, hdigit⟩ | hword
  · refine List.any_eq_false.mp h.1 c ?_ hdigit
    rwa [Layout.render, String.toList_ofList]
  · exact h.2 hword

theorem verbal_symbol (op : Operator) : Verbal op.symbol := by
  cases op with
  | binary op => cases op <;> decide
  | neg => decide

theorem verbal_name (f : Function) : Verbal f.name := by
  cases f <;> decide

theorem named?_render (x : Float) : named? (Layout.twelve.render x) = none := by
  have hvariable : Layout.twelve.render x ≠ variableName :=
    (Verbal.ne_render (by decide) x).symm
  have hsymbol : Operator.ofSymbol? (Layout.twelve.render x) = none := by
    refine List.find?_eq_none.mpr fun op _ => ?_
    simpa using (verbal_symbol op).ne_render x
  have hname : Function.ofName? (Layout.twelve.render x) = none := by
    refine List.find?_eq_none.mpr fun f _ => ?_
    simpa using (verbal_name f).ne_render x
  simp [named?, hvariable, hsymbol, hname]

/-! ### The words of all instructions -/

theorem named?_symbol (op : Operator) : named? op.symbol = some (.apply op) := by
  have hvariable : op.symbol ≠ variableName := by
    cases op with
    | binary op => cases op <;> decide
    | neg => decide
  simp [named?, hvariable, Operator.ofSymbol?_symbol]

theorem named?_name (f : Function) : named? f.name = some (.call f) := by
  have hvariable : f.name ≠ variableName := by cases f <;> decide
  have hsymbol : Operator.ofSymbol? f.name = none := by cases f <;> decide
  simp [named?, hvariable, hsymbol, Function.ofName?_name]

theorem named?_text (i : Instruction) :
    named? i.text = some i ∨ ∃ v, i = .const v ∧ named? i.text = none := by
  cases i with
  | const v => exact .inr ⟨v, rfl, named?_render v⟩
  | var => exact .inl rfl
  | apply op => exact .inl (named?_symbol op)
  | call f => exact .inl (named?_name f)

theorem Alike.refl (i : Instruction) : i.Alike i := by
  cases i with
  | const v => exact .const rfl
  | var => exact .var
  | apply op => exact .apply op
  | call f => exact .call f

theorem alike_iff {i j : Instruction} : i.Alike j ↔ i.text = j.text := by
  refine ⟨Alike.text_eq, fun h => ?_⟩
  rcases named?_text i with hi | ⟨v, rfl, hi⟩ <;> rcases named?_text j with hj | ⟨w, rfl, hj⟩
  · rw [h, hj] at hi
    cases hi
    exact Alike.refl i
  · rw [h, hj] at hi
    cases hi
  · rw [h, hj] at hi
    cases hi
  · exact .const h

/-! ### Words and blanks -/

theorem solid_text (i : Instruction) : i.text.toList ≠ [] ∧ ' ' ∉ i.text.toList := by
  cases i with
  | const v =>
    obtain ⟨hsome, hlexical⟩ := characters_lexical v
    rw [text, Layout.render, String.toList_ofList]
    refine ⟨hsome, fun hmem => ?_⟩
    have hblank := (hlexical ' ' hmem).not_isBlank
    cases hblank
  | var => decide
  | apply op =>
    cases op with
    | binary op => cases op <;> decide
    | neg => decide
  | call f => cases f <;> decide

end Instruction

namespace Program

def words (p : Program) : List (List Char) :=
  p.instructions.map fun i => i.text.toList

theorem toList_text (p : Program) : p.text.toList = [' '].intercalate p.words := by
  rw [text, words, String.toList_intercalate, List.map_map]
  rfl

theorem splitOn_text {p : Program} (h : p.words ≠ []) : p.text.toList.splitOn ' ' = p.words := by
  rw [toList_text]
  refine List.splitOn_intercalate ' ' ?_ h
  intro w hw
  obtain ⟨i, -, rfl⟩ := List.mem_map.mp hw
  exact i.solid_text.2

theorem words_eq_nil_iff (p : Program) : p.words = [] ↔ p.text = "" := by
  constructor
  · intro h
    rw [← String.toList_eq_nil_iff, toList_text, h]
    rfl
  · intro h
    by_contra hsome
    have hsplit := splitOn_text hsome
    rw [h] at hsplit
    -- nothing is left between blanks in an empty text but the empty word
    have hempty : [] ∈ p.words := by simp [← hsplit]
    obtain ⟨i, -, hi⟩ := List.mem_map.mp hempty
    exact i.solid_text.1 hi

theorem words_eq_iff (p q : Program) : p.words = q.words ↔ p.text = q.text := by
  constructor
  · intro h
    rw [← String.toList_inj, toList_text, toList_text, h]
  · intro h
    by_cases hp : p.words = []
    · rw [hp, (words_eq_nil_iff q).mpr (h ▸ (words_eq_nil_iff p).mp hp)]
    · have hq : q.words ≠ [] := fun hq =>
        hp ((words_eq_nil_iff p).mpr (h ▸ (words_eq_nil_iff q).mp hq))
      rw [← splitOn_text hp, h, splitOn_text hq]

/-- Two programs have the same text exactly when they have the same number of instructions, each of
them like the other one in its place. -/
theorem text_eq_iff (p q : Program) :
    p.text = q.text ↔ List.Forall₂ Instruction.Alike p.instructions q.instructions := by
  rw [← words_eq_iff, words, words, ← List.forall₂_eq_eq_eq, List.forall₂_map_left_iff,
    List.forall₂_map_right_iff]
  simp only [String.toList_inj, ← Instruction.alike_iff]

end Program
end CurveSketch
