import CurveSketch.Expr
import CurveSketch.Token

/-!
# CurveSketch.Expr.Grammar

The grammar of expressions. Sums are sequences of products, products sequences of factors, and
both group to the left; a power groups to the right and binds tighter than the sign in front of
it. A factor that follows another one without an operator is multiplied with it, unless it starts
with a minus, which would be a subtraction. Names of functions are known to the grammar: only the
seven functions can be called.
-/

namespace CurveSketch

inductive Level where
  | sum
  | product
  | factor
  | power
  | atom
  deriving DecidableEq, Repr

namespace Level

def rank : Level → Nat
  | atom => 0
  | power => 1
  | factor => 2
  | product => 3
  | sum => 4

/-- A looser level has the expressions of the tighter ones. -/
instance : LE Level := ⟨fun a b => a.rank ≤ b.rank⟩

instance (a b : Level) : Decidable (a ≤ b) :=
  inferInstanceAs (Decidable (a.rank ≤ b.rank))

theorem le_trans {a b c : Level} (hab : a ≤ b) (hbc : b ≤ c) : a ≤ c :=
  Nat.le_trans hab hbc

theorem atom_le (a : Level) : atom ≤ a :=
  Nat.zero_le a.rank

theorem le_sum (a : Level) : a ≤ sum := by
  cases a <;> decide

end Level

namespace BinaryOp

def level : BinaryOp → Level
  | add => .sum
  | sub => .sum
  | mul => .product
  | div => .product
  | pow => .power

def leftLevel : BinaryOp → Level
  | add => .sum
  | sub => .sum
  | mul => .product
  | div => .product
  | pow => .atom

end BinaryOp

namespace Operator

def level : Operator → Level
  | binary op => op.level
  | neg => .factor

def operandLevel : Operator → Level
  | binary .add => .product
  | binary .sub => .product
  | binary .mul => .factor
  | binary .div => .factor
  | binary .pow => .factor
  | neg => .factor

end Operator

/-- The tokens are an expression of that level with that tree. The offsets of tokens do not
matter. -/
inductive Derives : Level → List Token → Expr → Prop where
  | sum {ts us : List Token} {l r : Expr} (op : BinaryOp) (position : Nat)
      (level : op.level = .sum) (left : Derives .sum ts l) (right : Derives .product us r) :
      Derives .sum (ts ++ ⟨.operator op.symbol, position⟩ :: us) (.binary op l r)
  | ofProduct {ts : List Token} {e : Expr} (h : Derives .product ts e) : Derives .sum ts e
  | product {ts us : List Token} {l r : Expr} (op : BinaryOp) (position : Nat)
      (level : op.level = .product) (left : Derives .product ts l) (right : Derives .factor us r) :
      Derives .product (ts ++ ⟨.operator op.symbol, position⟩ :: us) (.binary op l r)
  | implicit {ts us : List Token} {l r : Expr}
      (left : Derives .product ts l) (right : Derives .power us r) :
      Derives .product (ts ++ us) (.binary .mul l r)
  | ofFactor {ts : List Token} {e : Expr} (h : Derives .factor ts e) : Derives .product ts e
  | neg {ts : List Token} {e : Expr} (position : Nat) (operand : Derives .factor ts e) :
      Derives .factor (⟨.operator BinaryOp.sub.symbol, position⟩ :: ts) (.neg e)
  | ofPower {ts : List Token} {e : Expr} (h : Derives .power ts e) : Derives .factor ts e
  | power {ts us : List Token} {l r : Expr} (position : Nat)
      (base : Derives .atom ts l) (exponent : Derives .factor us r) :
      Derives .power (ts ++ ⟨.operator BinaryOp.pow.symbol, position⟩ :: us) (.binary .pow l r)
  | ofAtom {ts : List Token} {e : Expr} (h : Derives .atom ts e) : Derives .power ts e
  | number (value : Float) (position : Nat) :
      Derives .atom [⟨.number value, position⟩] (.const value)
  | var (position : Nat) : Derives .atom [⟨.var, position⟩] .var
  | call {ts : List Token} {e : Expr} (f : Function) (name opening closing : Nat)
      (argument : Derives .sum ts e) :
      Derives .atom
        (⟨.function f.name, name⟩ :: ⟨.leftParen, opening⟩ :: (ts ++ [⟨.rightParen, closing⟩]))
        (.call f e)
  | group {ts : List Token} {e : Expr} (opening closing : Nat) (inside : Derives .sum ts e) :
      Derives .atom (⟨.leftParen, opening⟩ :: (ts ++ [⟨.rightParen, closing⟩])) e

namespace Derives

theorem ne_nil {level : Level} {ts : List Token} {e : Expr} (h : Derives level ts e) :
    ts ≠ [] := by
  induction h with
  | sum | product | power => simp
  | implicit left right ihl ihr => simp [ihl]
  | ofProduct h ih | ofFactor h ih | ofPower h ih | ofAtom h ih => exact ih
  | neg | number | var | call | group => simp

/-- A power begins with a token that opens an operand, never with a sign. -/
theorem starts {level : Level} {ts : List Token} {e : Expr} (h : Derives level ts e)
    (hl : level ≤ .power) : ∃ t rest, ts = t :: rest ∧ t.lexeme.startsOperand = true := by
  induction h with
  | power position base exponent ihb ihe =>
    obtain ⟨t, rest, rfl, ht⟩ := ihb (by decide)
    exact ⟨t, _, rfl, ht⟩
  | ofAtom h ih => exact ih (by decide)
  | number | var | call | group => exact ⟨_, _, rfl, rfl⟩
  | sum | ofProduct | product | implicit | ofFactor | neg | ofPower => exact absurd hl (by decide)

theorem binary {ts us : List Token} {l r : Expr} (op : BinaryOp) (position : Nat)
    (left : Derives op.leftLevel ts l) (right : Derives (Operator.binary op).operandLevel us r) :
    Derives op.level (ts ++ ⟨.operator op.symbol, position⟩ :: us) (.binary op l r) := by
  cases op with
  | add => exact .sum .add position rfl left right
  | sub => exact .sum .sub position rfl left right
  | mul => exact .product .mul position rfl left right
  | div => exact .product .div position rfl left right
  | pow => exact .power position left right

theorem loosen {a b : Level} {ts : List Token} {e : Expr} (h : Derives a ts e) (hab : a ≤ b) :
    Derives b ts e := by
  have toPower : a ≤ .power → Derives .power ts e := by
    intro ha
    cases a with
    | atom => exact .ofAtom h
    | power => exact h
    | factor | product | sum => exact absurd ha (by decide)
  have toFactor : a ≤ .factor → Derives .factor ts e := by
    intro ha
    cases a with
    | atom | power => exact .ofPower (toPower (by decide))
    | factor => exact h
    | product | sum => exact absurd ha (by decide)
  have toProduct : a ≤ .product → Derives .product ts e := by
    intro ha
    cases a with
    | atom | power | factor => exact .ofFactor (toFactor (by decide))
    | product => exact h
    | sum => exact absurd ha (by decide)
  cases b with
  | sum =>
    cases a with
    | sum => exact h
    | atom | power | factor | product => exact .ofProduct (toProduct (by decide))
  | product => exact toProduct hab
  | factor => exact toFactor hab
  | power => exact toPower hab
  | atom =>
    cases a with
    | atom => exact h
    | power | factor | product | sum => exact absurd hab (by decide)

end Derives
end CurveSketch
