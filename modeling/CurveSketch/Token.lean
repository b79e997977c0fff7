import CurveSketch.Vocabulary
import CurveSketch.Value

/-!
# CurveSketch.Token

Lexical tokens. A token carries the text it was read from only as far as it matters later: the
value of a number, the word of a function, the symbol of an operator. Whether a word names a
function is for the compiler to say.
-/

namespace CurveSketch

inductive Lexeme where
  | number (value : Float)
  | var
  | function (name : String)
  | operator (symbol : String)
  | leftParen
  | rightParen

structure Token where
  lexeme : Lexeme
  position : Nat

inductive TokenKind where
  | number
  | var
  | function
  | operator
  | leftParen
  | rightParen
  deriving DecidableEq, Repr

namespace TokenKind

def label : TokenKind → String
  | number => "number"
  | var => "variable"
  | function => "function"
  | operator => "operator"
  | leftParen => "left_paren"
  | rightParen => "right_paren"

def all : List TokenKind :=
  [number, var, function, operator, leftParen, rightParen]

end TokenKind

namespace Lexeme

def kind : Lexeme → TokenKind
  | number _ => .number
  | var => .var
  | function _ => .function
  | operator _ => .operator
  | leftParen => .leftParen
  | rightParen => .rightParen

/-- Opens an operand: after a complete operand a product is understood. -/
def startsOperand : Lexeme → Bool
  | number _ => true
  | var => true
  | function _ => true
  | leftParen => true
  | _ => false

def endsOperand : Lexeme → Bool
  | number _ => true
  | var => true
  | rightParen => true
  | _ => false

/-- The symbol of an operator is one of the five. -/
def WellFormed : Lexeme → Prop
  | operator symbol => symbol ∈ BinaryOp.all.map BinaryOp.symbol
  | _ => True

instance : (lexeme : Lexeme) → Decidable lexeme.WellFormed
  | operator symbol => inferInstanceAs (Decidable (symbol ∈ BinaryOp.all.map BinaryOp.symbol))
  | number _ => .isTrue trivial
  | var => .isTrue trivial
  | function _ => .isTrue trivial
  | leftParen => .isTrue trivial
  | rightParen => .isTrue trivial

theorem WellFormed.symbol {symbol : String} (h : (operator symbol).WellFormed) :
    ∃ op : BinaryOp, symbol = op.symbol := by
  obtain ⟨op, -, hop⟩ := List.mem_map.mp h
  exact ⟨op, hop.symm⟩

def text : Lexeme → String
  | number x => Decimal.Layout.twelve.render x
  | var => variableName
  | function name => name
  | operator symbol => symbol
  | leftParen => "("
  | rightParen => ")"

def value : Lexeme → Value
  | number x => .real x
  | lexeme => .text lexeme.text

end Lexeme

namespace Token

def kind (t : Token) : TokenKind :=
  t.lexeme.kind

def text (t : Token) : String :=
  t.lexeme.text

/-- If the token is an operator, its symbol is one of the five. -/
def WellFormed (t : Token) : Prop :=
  t.lexeme.WellFormed

instance (t : Token) : Decidable t.WellFormed :=
  inferInstanceAs (Decidable t.lexeme.WellFormed)

def toValue (t : Token) : Value :=
  .object [("kind", .text t.kind.label), ("value", t.lexeme.value), ("position", .int t.position)]

def normalized (ts : List Token) : String :=
  String.intercalate " " (ts.map Token.text)

end Token
end CurveSketch
