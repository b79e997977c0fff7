import CurveSketch.Proofs.Compilation
import CurveSketch.Proofs.Evaluation

/-!
# CurveSketch.Proofs.Substitution

Replacing the variable by an expression in parentheses. On tokens every variable becomes the
tokens of the other expression between parentheses, on trees it becomes the other tree, on
programs it becomes the other program. A parenthesised expression is an atom, so a derivation of
the outer expression stays one (`Derives.substitute`); and what the inner program pushes is what
the variable would have been (`Expr.value_substitute`). Together: the tokens after the replacement
are compiled, to the program after the replacement, and running it is running the outer program at
the value of the inner one (`ofTokens_substitutes`).
-/

namespace CurveSketch

/-- `cs` is `ts` with every variable replaced by `body` in parentheses, wherever the parentheses
are said to stand. -/
inductive Token.Substitutes (body : List Token) : List Token → List Token → Prop where
  | nil : Substitutes body [] []
  | var {ts cs : List Token} (position opening closing : Nat) (rest : Substitutes body ts cs) :
      Substitutes body (⟨.var, position⟩ :: ts)
        (⟨.leftParen, opening⟩ :: (body ++ [⟨.rightParen, closing⟩]) ++ cs)
  | other {ts cs : List Token} (t : Token) (h : t.lexeme ≠ .var) (rest : Substitutes body ts cs) :
      Substitutes body (t :: ts) (t :: cs)

namespace Token.Substitutes

variable {body ts us cs : List Token}

theorem append (h : Substitutes body (ts ++ us) cs) :
    ∃ fs bs, cs = fs ++ bs ∧ Substitutes body ts fs ∧ Substitutes body us bs := by
  induction ts generalizing cs with
  | nil => exact ⟨[], cs, rfl, .nil, h⟩
  | cons t ts ih =>
    cases h with
    | var position opening closing rest =>
      obtain ⟨fs, bs, rfl, hfs, hbs⟩ := ih rest
      exact ⟨_, bs, by simp, .var position opening closing hfs, hbs⟩
    | other t h rest =>
      obtain ⟨fs, bs, rfl, hfs, hbs⟩ := ih rest
      exact ⟨t :: fs, bs, rfl, .other t h hfs, hbs⟩

theorem cons {t : Token} (ht : t.lexeme ≠ .var) (h : Substitutes body (t :: ts) cs) :
    ∃ bs, cs = t :: bs ∧ Substitutes body ts bs := by
  cases h with
  | var position opening closing rest => exact absurd rfl ht
  | other t h rest => exact ⟨_, rfl, rest⟩

theorem singleton {t : Token} (ht : t.lexeme ≠ .var) (h : Substitutes body [t] cs) : cs = [t] := by
  obtain ⟨bs, rfl, hbs⟩ := h.cons ht
  cases hbs
  rfl

theorem around {t : Token} (ht : t.lexeme ≠ .var) (h : Substitutes body (ts ++ t :: us) cs) :
    ∃ fs bs, cs = fs ++ t :: bs ∧ Substitutes body ts fs ∧ Substitutes body us bs := by
  obtain ⟨fs, rest, rfl, hfs, hrest⟩ := h.append
  obtain ⟨bs, rfl, hbs⟩ := hrest.cons ht
  exact ⟨fs, bs, rfl, hfs, hbs⟩

end Token.Substitutes

/-- The instructions that an instruction becomes when the variable is to be what `body` pushes. -/
def Instruction.replaced (body : List Instruction) : Instruction → List Instruction
  | var => body
  | i => [i]

namespace Expr

def substitute : Expr → Expr → Expr
  | const v, _ => const v
  | var, body => body
  | neg e, body => neg (e.substitute body)
  | binary op l r, body => binary op (l.substitute body) (r.substitute body)
  | call f e, body => call f (e.substitute body)

theorem instructions_substitute (e body : Expr) :
    (e.substitute body).instructions =
      e.instructions.flatMap (Instruction.replaced body.instructions) := by
  induction e with
  | const v => rfl
  | var => simp [substitute, instructions, Instruction.replaced]
  | neg e ih => simp [substitute, instructions, Instruction.replaced, ih]
  | binary op l r ihl ihr => simp [substitute, instructions, Instruction.replaced, ihl, ihr]
  | call f e ih => simp [substitute, instructions, Instruction.replaced, ih]

/-- The variable stands for the value of what replaces it. That value is finite, so the variable
is defined where the body is. -/
theorem value_substitute {m : Elementary} {x v : Float} {body : Expr}
    (h : body.value m x = .ok v) (e : Expr) : (e.substitute body).value m x = e.value m v := by
  induction e with
  | const c => rfl
  | var =>
    have hfinite : v.isFinite = true := isFinite_of_value h
    simp only [substitute, value, checked, hfinite, if_true, h]
  | neg e ih => simp only [substitute, value, ih]
  | binary op l r ihl ihr => simp only [substitute, value, ihl, ihr]
  | call f e ih => simp only [substitute, value, ih]

end Expr

/-- An expression in parentheses can stand wherever the variable can. -/
theorem Derives.substitute {level : Level} {ts body cs : List Token} {e b : Expr}
    (h : Derives level ts e) (hbody : Derives .sum body b) (hcs : Token.Substitutes body ts cs) :
    Derives level cs (e.substitute b) := by
  induction h generalizing cs with
  | sum op position level left right ihl ihr =>
    obtain ⟨fs, bs, rfl, hfs, hbs⟩ := hcs.around (by simp)
    exact .sum op position level (ihl hfs) (ihr hbs)
  | product op position level left right ihl ihr =>
    obtain ⟨fs, bs, rfl, hfs, hbs⟩ := hcs.around (by simp)
    exact .product op position level (ihl hfs) (ihr hbs)
  | power position base exponent ihb ihe =>
    obtain ⟨fs, bs, rfl, hfs, hbs⟩ := hcs.around (by simp)
    exact .power position (ihb hfs) (ihe hbs)
  | implicit left right ihl ihr =>
    obtain ⟨fs, bs, rfl, hfs, hbs⟩ := hcs.append
    exact .implicit (ihl hfs) (ihr hbs)
  | neg position operand ih =>
    obtain ⟨bs, rfl, hbs⟩ := hcs.cons (by simp)
    exact .neg position (ih hbs)
  | number value position =>
    obtain rfl := hcs.singleton (by simp)
    exact .number value position
  | var position =>
    cases hcs with
    | var position opening closing rest =>
      cases rest
      rw [List.append_nil]
      exact .group opening closing hbody
    | other t h rest => exact absurd rfl h
  | call f name opening closing argument ih =>
    obtain ⟨afterName, rfl, hafter⟩ := hcs.cons (by simp)
    obtain ⟨rest, rfl, hrest⟩ := hafter.cons (by simp)
    obtain ⟨fs, bs, rfl, hfs, hbs⟩ := hrest.append
    obtain rfl := hbs.singleton (by simp)
    exact .call f name opening closing (ih hfs)
  | group opening closing inside ih =>
    obtain ⟨rest, rfl, hrest⟩ := hcs.cons (by simp)
    obtain ⟨fs, bs, rfl, hfs, hbs⟩ := hrest.append
    obtain rfl := hbs.singleton (by simp)
    exact .group opening closing (ih hfs)
  | ofProduct h ih => exact .ofProduct (ih hcs)
  | ofFactor h ih => exact .ofFactor (ih hcs)
  | ofPower h ih => exact .ofPower (ih hcs)
  | ofAtom h ih => exact .ofAtom (ih hcs)

namespace Program

theorem evaluateWith_eq_value (m : Elementary) (e : Expr) (source : String) (x : Float) :
    evaluateWith m ⟨e.instructions, source⟩ x =
      match e.value m x with
      | .ok v => .ok v
      | .error fault => .error (.domain fault) := by
  cases he : e.value m x with
  | ok v => exact evaluateWith_of_value he source
  | error fault => exact evaluateWith_of_fault he source

theorem evaluateWith_substitute {m : Elementary} {x v : Float} {body e : Expr} {inner : String}
    (h : evaluateWith m ⟨body.instructions, inner⟩ x = .ok v) (outer source : String) :
    evaluateWith m ⟨(e.substitute body).instructions, source⟩ x =
      evaluateWith m ⟨e.instructions, outer⟩ v := by
  have hvalue : body.value m x = .ok v := by
    rw [evaluateWith_eq_value] at h
    split at h
    · rename_i w hw
      cases h
      exact hw
    · cases h
  simp only [evaluateWith_eq_value, Expr.value_substitute hvalue]

theorem evaluateAt_eq_ok {p : Program} {x : Value} {v : Float} (h : p.evaluateAt x = .ok v) :
    ∃ y, x.toReal = .ok y ∧ p.evaluate y = .ok v := by
  simp only [evaluateAt] at h
  split at h
  · cases h
  · rename_i y hy
    split at h
    · rename_i w hw
      cases h
      exact ⟨y, hy, hw⟩
    · cases h

/-- Replacing the variable by an expression in parentheses: the tokens are compiled, every
instruction that pushes the variable becomes the whole inner program, and where the inner program
has a value the outcome is that of the outer program at this value. -/
theorem ofTokens_substitutes {ts body cs : List Token} {outer inner : String} {p q : Program}
    (wf : ∀ t ∈ ts, t.WellFormed) (wfBody : ∀ t ∈ body, t.WellFormed)
    (hp : ofTokens ts outer = .ok p) (hq : ofTokens body inner = .ok q)
    (hcs : Token.Substitutes body ts cs) (source : String) :
    ∃ r, ofTokens cs source = .ok r ∧ r.source = source ∧
      r.instructions = p.instructions.flatMap (Instruction.replaced q.instructions) ∧
      (∀ (m : Elementary) (x v : Float), q.evaluateWith m x = .ok v →
        r.evaluateWith m x = p.evaluateWith m v) ∧
      ∀ (x : Value) (v : Float), q.evaluateAt x = .ok v →
        r.evaluateAt x = p.evaluateAt (.real v) := by
  obtain ⟨e, he, rfl⟩ := derives_of_ofTokens wf hp
  obtain ⟨b, hb, rfl⟩ := derives_of_ofTokens wfBody hq
  have hderives := he.substitute hb hcs
  refine ⟨_, ofTokens_of_derives hderives source, rfl, Expr.instructions_substitute e b, ?_, ?_⟩
  · intro m x v h
    exact evaluateWith_substitute h outer source
  · intro x v h
    obtain ⟨y, hy, hv⟩ := evaluateAt_eq_ok h
    rw [evaluateAt, hy, evaluateAt]
    simp only [Value.toReal, evaluate, evaluateWith_substitute hv outer]

/-- `-x^x` with `1-x` for its variable: the parentheses keep the sum together in the base and in
the exponent, and at 3 the result is that of `-x^x` at -2. -/
theorem ofTokens_substitutes_power :
    ∃ r, ofTokens
        [⟨.operator "-", 0⟩, ⟨.leftParen, 1⟩, ⟨.number 1, 0⟩, ⟨.operator "-", 1⟩, ⟨.var, 2⟩,
          ⟨.rightParen, 5⟩, ⟨.operator "^", 2⟩, ⟨.leftParen, 7⟩, ⟨.number 1, 0⟩,
          ⟨.operator "-", 1⟩, ⟨.var, 2⟩, ⟨.rightParen, 11⟩] "-(1-x)^(1-x)" = .ok r ∧
      r.instructions =
        [.const 1, .var, .apply (.binary .sub), .const 1, .var, .apply (.binary .sub),
          .apply (.binary .pow), .apply .neg] ∧
      r.evaluate 3 = evaluate ⟨[.var, .var, .apply (.binary .pow), .apply .neg], "-x^x"⟩ (-2) := by
  have houter : ofTokens [⟨.operator "-", 0⟩, ⟨.var, 1⟩, ⟨.operator "^", 2⟩, ⟨.var, 3⟩] "-x^x" =
      .ok ⟨[.var, .var, .apply (.binary .pow), .apply .neg], "-x^x"⟩ := rfl
  have hinner : ofTokens [⟨.number 1, 0⟩, ⟨.operator "-", 1⟩, ⟨.var, 2⟩] "1-x" =
      .ok ⟨[.const 1, .var, .apply (.binary .sub)], "1-x"⟩ := rfl
  obtain ⟨r, hr, -, hinstructions, hvalue, -⟩ :=
    ofTokens_substitutes (by decide) (by decide) houter hinner
      (.other _ (by simp) (.var 1 1 5 (.other _ (by simp) (.var 3 7 11 .nil)))) "-(1-x)^(1-x)"
  refine ⟨r, hr, hinstructions, ?_⟩
  have hthree : evaluate ⟨[.const 1, .var, .apply (.binary .sub)], "1-x"⟩ 3 = .ok (-2) := rfl
  exact hvalue .double 3 (-2) hthree

end Program
end CurveSketch
