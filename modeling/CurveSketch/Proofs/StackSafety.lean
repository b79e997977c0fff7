import CurveSketch.Proofs.Compilation
import CurveSketch.Proofs.Evaluation
import CurveSketch.Report

/-!
# CurveSketch.Proofs.StackSafety

A compiled expression never meets a stack fault. The tokens of a text are well-formed
(`wellFormed_of_tokenize`), so a program made from them lists an expression and is balanced; a
balanced program returns a finite value or is undefined at every `x`. Hence the trial of a new
program refuses nothing, and an evaluation always has an answer (`compile_stackSafe`).
-/

namespace CurveSketch
namespace Scan

theorem wellFormed_symbolLexeme {c : Char} (h : isSymbol c = true) :
    (symbolLexeme c).WellFormed := by
  simp only [isSymbol, Bool.or_eq_true, beq_iff_eq] at h
  rcases h with (((((rfl | rfl) | rfl) | rfl) | rfl) | rfl) | rfl <;> decide

theorem wellFormed_wordLexeme (word : String) : (wordLexeme word).WellFormed := by
  unfold wordLexeme
  split
  · trivial
  · split <;> trivial

theorem wellFormed_lexeme (first : Char) (others : List Char) :
    (lexeme first others).WellFormed := by
  unfold lexeme
  split
  · exact wellFormed_symbolLexeme ‹_›
  · split
    · exact wellFormed_wordLexeme _
    · trivial

end Scan

theorem wellFormed_of_tokenize {mode : LexMode} {limit : Int} {text : String} {ts : List Token}
    (h : tokenize mode limit text = .ok ts) : ∀ t ∈ ts, t.WellFormed := by
  intro t ht
  obtain ⟨-, first, others, -, -, hread⟩ := Scan.slice_of_tokens (tokenize_eq_ok.mp h).2 t ht
  rw [Token.WellFormed, hread]
  exact Scan.wellFormed_lexeme first others

namespace Program

theorem balanced_of_ofTokens {ts : List Token} {source : String} {p : Program}
    (wf : ∀ t ∈ ts, t.WellFormed) (h : ofTokens ts source = .ok p) :
    Balanced p.instructions := by
  obtain ⟨e, -, rfl⟩ := derives_of_ofTokens wf h
  exact balanced_instructions e

theorem tried_of_balanced {p : Program} (h : Balanced p.instructions) : p.tried = .ok p := by
  unfold tried
  split
  · rename_i fault hfault
    exact absurd h (not_balanced_of_stackFault hfault)
  · rfl

theorem compile_eq (mode : LexMode) (limit : Int) (text : String) :
    compile mode limit text =
      match tokenize mode limit text with
      | .error e => .error (.lex e)
      | .ok ts =>
        match ofTokens ts (Text.strip Text.isBlank text) with
        | .error e => .error (.grammar e)
        | .ok p => .ok p := by
  unfold compile
  cases hts : tokenize mode limit text with
  | error e => rfl
  | ok ts =>
    simp only
    cases hp : ofTokens ts (Text.strip Text.isBlank text) with
    | error e => rfl
    | ok p =>
      -- so the trial at 1 cannot end in a stack fault
      have hbalanced := balanced_of_ofTokens (wellFormed_of_tokenize hts) hp
      simp only [tried_of_balanced hbalanced]

theorem derives_of_compile {mode : LexMode} {limit : Int} {text : String} {p : Program}
    (h : compile mode limit text = .ok p) :
    ∃ ts e, tokenize mode limit text = .ok ts ∧ Derives .sum ts e ∧
      p.instructions = e.instructions := by
  rw [compile_eq] at h
  split at h
  · cases h
  · rename_i ts hts
    split at h
    · cases h
    · rename_i q hq
      cases h
      obtain ⟨e, he, rfl⟩ := derives_of_ofTokens (wellFormed_of_tokenize hts) hq
      exact ⟨ts, e, hts, he, rfl⟩

theorem balanced_of_compile {mode : LexMode} {limit : Int} {text : String} {p : Program}
    (h : compile mode limit text = .ok p) : Balanced p.instructions := by
  obtain ⟨ts, e, -, -, hlisting⟩ := derives_of_compile h
  rw [hlisting]
  exact balanced_instructions e

end Program

/-! ## Errors of the compiler -/

/-- The error is about tokens, not about a run. -/
def SyntaxError.AboutTokens : SyntaxError → Prop
  | malformed _ => False
  | _ => True

namespace Compile

theorem aboutTokens_of_missingCall? {previous next : Option Token} {e : SyntaxError}
    (h : missingCall? previous next = some e) : e.AboutTokens := by
  unfold missingCall? at h
  split at h
  · split at h
    · cases h
    · cases h
      trivial
  · cases h

theorem aboutTokens_of_read {s : State} {t : Token} {e : SyntaxError} (h : read s t = .error e) :
    e.AboutTokens := by
  unfold read at h
  split at h
  · cases h
  · cases h
  · split at h
    · cases h
    · cases h
      trivial
  · cases h
  · split at h
    · cases h
      trivial
    · split at h
      · cases h
      · cases h
        trivial
  · split at h
    · split at h
      · cases h
      · cases h
        trivial
    · split at h
      · cases h
      · cases h
        trivial

theorem aboutTokens_of_step {s : State} {t : Token} {e : SyntaxError} (h : step s t = .error e) :
    e.AboutTokens := by
  unfold step at h
  split at h
  · rename_i hmissing
    cases h
    exact aboutTokens_of_missingCall? hmissing
  · simp only at h
    split at h
    · cases h
    · rename_i hread
      cases h
      exact aboutTokens_of_read hread

theorem aboutTokens_of_steps {s : State} {ts : List Token} {e : SyntaxError}
    (h : steps s ts = .error e) : e.AboutTokens := by
  induction ts generalizing s with
  | nil => cases h
  | cons t rest ih =>
    simp only [steps] at h
    split at h
    · exact ih h
    · rename_i hstep
      cases h
      exact aboutTokens_of_step hstep

theorem aboutTokens_of_drain {pending : List Pending} {output : List Instruction} {e : SyntaxError}
    (h : drain pending output = .error e) : e.AboutTokens := by
  induction pending generalizing output with
  | nil => cases h
  | cons entry rest ih =>
    cases entry with
    | operator op => exact ih h
    | function f => exact ih h
    | group position =>
      cases h
      trivial

theorem aboutTokens_of_finish {s : State} {e : SyntaxError} (h : finish s = .error e) :
    e.AboutTokens := by
  unfold finish at h
  split at h
  · rename_i hmissing
    cases h
    exact aboutTokens_of_missingCall? hmissing
  · split at h
    · cases h
      trivial
    · split at h
      · cases h
      · rename_i hdrain
        cases h
        exact aboutTokens_of_drain hdrain

theorem aboutTokens_of_instructions {ts : List Token} {e : SyntaxError}
    (h : instructions ts = .error e) : e.AboutTokens := by
  cases ts with
  | nil =>
    cases h
    trivial
  | cons t rest =>
    simp only [instructions] at h
    split at h
    · exact aboutTokens_of_finish h
    · rename_i hsteps
      cases h
      exact aboutTokens_of_steps hsteps

end Compile

theorem Program.aboutTokens_of_ofTokens {ts : List Token} {source : String} {e : SyntaxError}
    (h : ofTokens ts source = .error e) : e.AboutTokens := by
  simp only [ofTokens] at h
  split at h
  · cases h
  · rename_i hinstructions
    cases h
    exact Compile.aboutTokens_of_instructions hinstructions

/-! ## Answers -/

/-- Either there is a value, which is finite, or a message. -/
def Evaluation.Decided (answer : Evaluation) : Prop :=
  (∃ v, answer.result? = some v ∧ v.isFinite = true ∧ answer.domainError? = none) ∨
    ∃ message, answer.result? = none ∧ answer.domainError? = some message

theorem Evaluation.decided_of_balanced {p : Program} (h : Program.Balanced p.instructions)
    (x : Float) :
    ∃ answer, Evaluation.ofProgram p x = .ok answer ∧ answer.program = p ∧ answer.x = x ∧
      answer.Decided := by
  rcases Program.evaluateWith_of_balanced h .double x with ⟨v, hv, hfinite⟩ | ⟨fault, hfault⟩
  · refine ⟨⟨p, x, .ok v⟩, ?_, rfl, rfl, .inl ⟨v, rfl, hfinite, rfl⟩⟩
    simp only [ofProgram, Program.evaluate, hv]
  · refine ⟨⟨p, x, .error fault⟩, ?_, rfl, rfl, .inr ⟨fault.message, rfl, rfl⟩⟩
    simp only [ofProgram, Program.evaluate, hfault]

theorem Evaluation.ofValues_text (mode : LexMode) (limit : Int) (text : String) (x : Float) :
    Evaluation.ofValues mode.name limit (.text text) (.real x) =
      Evaluation.ofText mode limit text x := by
  simp only [ofValues, compileAt, textOf, LexMode.ofName, LexMode.ofName?_name, Value.toReal,
    ofText]

namespace Program

/-- Compiling a text is scanning it and compiling the tokens, the trial refuses nothing, and what
is compiled has a finite value or is undefined wherever it is evaluated. -/
theorem compile_stackSafe (mode : LexMode) (limit : Int) (text : String) :
    (∀ p, compile mode limit text = .ok p ↔
      ∃ ts, tokenize mode limit text = .ok ts ∧
        ofTokens ts (Text.strip Text.isBlank text) = .ok p) ∧
    (∀ fault, compile mode limit text ≠ .error (.grammar (.malformed fault))) ∧
    ∀ p, compile mode limit text = .ok p → ∀ x : Float,
      ((∃ v, p.evaluate x = .ok v ∧ v.isFinite = true) ∨
        ∃ fault, p.evaluate x = .error (.domain fault)) ∧
      ∃ answer, Evaluation.ofText mode limit text x = .ok answer ∧
        Evaluation.ofValues mode.name limit (.text text) (.real x) = .ok answer ∧
        answer.program = p ∧ answer.x = x ∧ answer.Decided := by
  refine ⟨?_, ?_, ?_⟩
  · intro p
    rw [compile_eq]
    constructor
    · intro h
      split at h
      · cases h
      · rename_i ts hts
        split at h
        · cases h
        · rename_i hp
          cases h
          exact ⟨ts, hts, hp⟩
    · rintro ⟨ts, hts, hp⟩
      simp only [hts, hp]
  · intro fault h
    rw [compile_eq] at h
    split at h
    · cases h
    · split at h
      · rename_i hp
        cases h
        exact aboutTokens_of_ofTokens hp
      · cases h
  · intro p hp x
    have hbalanced := balanced_of_compile hp
    obtain ⟨answer, hanswer, hprogram, hx, hdecided⟩ := Evaluation.decided_of_balanced hbalanced x
    have htext : Evaluation.ofText mode limit text x = .ok answer := by
      simp only [Evaluation.ofText, hp, hanswer]
    refine ⟨evaluateWith_of_balanced hbalanced .double x, answer, htext, ?_, hprogram, hx, hdecided⟩
    rw [Evaluation.ofValues_text, htext]

/-- `1/x` is compiled, and has an answer also where it is undefined. -/
theorem compile_stackSafe_reciprocal :
    compile .strict 256 "1/x" = .ok ⟨[.const 1, .var, .apply (.binary .div)], "1/x"⟩ ∧
    evaluate ⟨[.const 1, .var, .apply (.binary .div)], "1/x"⟩ 0 =
      .error (.domain .divisionByZero) ∧
    ∀ x : Float, ∃ answer, Evaluation.ofText .strict 256 "1/x" x = .ok answer ∧
      answer.Decided := by
  have hcompile : compile .strict 256 "1/x" =
      .ok ⟨[.const 1, .var, .apply (.binary .div)], "1/x"⟩ := rfl
  refine ⟨hcompile, rfl, ?_⟩
  intro x
  obtain ⟨-, answer, hanswer, -, -, -, hdecided⟩ :=
    (compile_stackSafe .strict 256 "1/x").2.2 _ hcompile x
  exact ⟨answer, hanswer, hdecided⟩

end Program
end CurveSketch
