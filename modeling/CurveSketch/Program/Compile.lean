import CurveSketch.Program.Run
import CurveSketch.Token.Scan

/-!
# CurveSketch.Program.Compile

From tokens to a program, by operator precedence. Operators, functions and open parentheses wait
on a stack until their operands are complete. Two adjacent operands have a product between them,
and a minus where an operand is expected is the sign of what follows; it binds tighter than
products and looser than powers. Every token is checked as it is read, so a program that is
returned keeps its stack in order.
-/

namespace CurveSketch

inductive SyntaxError where
  | empty
  | missingCall (name : String) (position : Nat)
  | unknownFunction (name : String) (position : Nat)
  | missingOperandBeforeClose (position : Nat)
  | unmatchedClose (position : Nat)
  | missingLeftOperand (symbol : String) (position : Nat)
  | unknownOperator (symbol : String)
  | incomplete
  | unmatchedOpen (position : Nat)
  | malformed (fault : StackFault)

namespace SyntaxError

def message : SyntaxError → String
  | empty => "Expression is empty"
  | missingCall name _ => s!"Function '{name}' must be followed by '('"
  | unknownFunction name position => s!"Unknown function '{name}' at position {position}"
  | missingOperandBeforeClose position => s!"Expected an operand before ')' at position {position}"
  | unmatchedClose position => s!"Unmatched ')' at position {position}"
  | missingLeftOperand symbol position =>
    s!"Operator '{symbol}' at position {position} is missing its left operand"
  | unknownOperator symbol => s!"{Text.quoted symbol} is not a valid Operator"
  | incomplete => "Expression is incomplete: an operand is missing at the end"
  | unmatchedOpen position => s!"Unmatched '(' at position {position}"
  | malformed fault => s!"Expression is malformed: {fault.message}"

def position? : SyntaxError → Option Nat
  | missingCall _ position => some position
  | unknownFunction _ position => some position
  | missingOperandBeforeClose position => some position
  | unmatchedClose position => some position
  | missingLeftOperand _ position => some position
  | unmatchedOpen position => some position
  | _ => none

end SyntaxError

namespace Compile

inductive Pending where
  | operator (op : Operator)
  | function (f : Function)
  | group (position : Nat)

/-- The state between two tokens: the instructions so far, latest first, and what waits,
innermost first. -/
structure State where
  output : List Instruction
  pending : List Pending
  expectsOperand : Bool
  previous : Option Token

def State.initial : State := ⟨[], [], true, none⟩

/-- A waiting operator is complete when `incoming` follows its operand. A sign waits while a power
comes, so that `-2^2` is `-(2^2)`. -/
def yields (top incoming : Operator) : Bool :=
  if top = .neg ∧ incoming = .binary .pow then false
  else
    incoming.precedence < top.precedence ||
      (top.precedence == incoming.precedence && !incoming.rightAssociative)

/-- The waiting operators that are complete before `incoming` go to the output. -/
def release (incoming : Operator) :
    List Pending → List Instruction → List Pending × List Instruction
  | .operator top :: rest, output =>
    if yields top incoming then release incoming rest (.apply top :: output)
    else (.operator top :: rest, output)
  | pending, output => (pending, output)

def pushOperator (incoming : Operator) (s : State) : State :=
  let (pending, output) := release incoming s.pending s.output
  { s with output := output, pending := .operator incoming :: pending, expectsOperand := true }

/-- Everything above the innermost open parenthesis goes to the output, then the function in front
of the parenthesis if there is one. `none` if no parenthesis is open. -/
def closeGroup? : List Pending → List Instruction → Option (List Pending × List Instruction)
  | [], _ => none
  | .operator op :: rest, output => closeGroup? rest (.apply op :: output)
  | .function f :: rest, output => closeGroup? rest (.call f :: output)
  | .group _ :: .function f :: rest, output => some (rest, .call f :: output)
  | .group _ :: rest, output => some (rest, output)

/-- The previous token is a function that this token does not open a parenthesis for. -/
def missingCall? (previous : Option Token) (next : Option Token) : Option SyntaxError :=
  match previous with
  | some ⟨.function name, position⟩ =>
    match next with
    | some ⟨.leftParen, _⟩ => none
    | _ => some (.missingCall name position)
  | _ => none

/-- A product is understood between the two tokens. -/
def isImplicitProduct (previous : Option Token) (next : Token) : Bool :=
  match previous with
  | some t => t.lexeme.endsOperand && next.lexeme.startsOperand
  | none => false

/-- A lexeme by itself, after products understood before it. -/
def read (s : State) (t : Token) : Except SyntaxError State :=
  match t.lexeme with
  | .number value =>
    .ok { s with output := .const value :: s.output, expectsOperand := false }
  | .var => .ok { s with output := .var :: s.output, expectsOperand := false }
  | .function name =>
    match Function.ofName? name with
    | some f => .ok { s with pending := .function f :: s.pending }
    | none => .error (.unknownFunction name t.position)
  | .leftParen => .ok { s with pending := .group t.position :: s.pending, expectsOperand := true }
  | .rightParen =>
    if s.expectsOperand then .error (.missingOperandBeforeClose t.position)
    else
      match closeGroup? s.pending s.output with
      | some (pending, output) =>
        .ok { s with output := output, pending := pending, expectsOperand := false }
      | none => .error (.unmatchedClose t.position)
  | .operator symbol =>
    if s.expectsOperand then
      if symbol == BinaryOp.sub.symbol then .ok (pushOperator .neg s)
      else .error (.missingLeftOperand symbol t.position)
    else
      match Operator.ofSymbol? symbol with
      | some op => .ok (pushOperator op s)
      | none => .error (.unknownOperator symbol)

def step (s : State) (t : Token) : Except SyntaxError State :=
  match missingCall? s.previous (some t) with
  | some e => .error e
  | none =>
    let ready := if isImplicitProduct s.previous t then pushOperator (.binary .mul) s else s
    match read ready t with
    | .ok next => .ok { next with previous := some t }
    | .error e => .error e

def steps (s : State) : List Token → Except SyntaxError State
  | [] => .ok s
  | t :: rest =>
    match step s t with
    | .ok next => steps next rest
    | .error e => .error e

def drain : List Pending → List Instruction → Except SyntaxError (List Instruction)
  | [], output => .ok output
  | .operator op :: rest, output => drain rest (.apply op :: output)
  | .function f :: rest, output => drain rest (.call f :: output)
  | .group position :: _, _ => .error (.unmatchedOpen position)

def finish (s : State) : Except SyntaxError (List Instruction) :=
  match missingCall? s.previous none with
  | some e => .error e
  | none =>
    if s.expectsOperand then .error .incomplete
    else
      match drain s.pending s.output with
      | .ok output => .ok output.reverse
      | .error e => .error e

def instructions : List Token → Except SyntaxError (List Instruction)
  | [] => .error .empty
  | t :: rest =>
    match steps .initial (t :: rest) with
    | .ok s => finish s
    | .error e => .error e

theorem steps_append (s : State) (ts us : List Token) :
    steps s (ts ++ us) =
      match steps s ts with
      | .ok next => steps next us
      | .error e => .error e := by
  induction ts generalizing s with
  | nil => rfl
  | cons t rest ih =>
    simp only [List.cons_append, steps]
    cases step s t with
    | ok next => exact ih next
    | error e => rfl

end Compile

namespace Program

def ofTokens (ts : List Token) (source : String) : Except SyntaxError Program :=
  match Compile.instructions ts with
  | .ok instructions => .ok ⟨instructions, source⟩
  | .error e => .error e

end Program

inductive CompileError where
  | lex (e : LexError)
  | grammar (e : SyntaxError)

namespace CompileError

def message : CompileError → String
  | lex e => e.message
  | grammar e => e.message

end CompileError

namespace Program

/-- The value of `x` that a new program is tried at. -/
def trialPoint : Float := 1

/-- A program that does not keep its stack in order at the trial point is refused. An undefined
result is not, since an expression may be outside its domain there. -/
def tried (p : Program) : Except SyntaxError Program :=
  match p.evaluate trialPoint with
  | .error (.stack fault) => .error (.malformed fault)
  | _ => .ok p

/-- The program of a text. Its source is the text without the blanks around it. -/
def compile (mode : LexMode) (limit : Int) (text : String) : Except CompileError Program :=
  match tokenize mode limit text with
  | .error e => .error (.lex e)
  | .ok ts =>
    match ofTokens ts (Text.strip Text.isBlank text) with
    | .error e => .error (.grammar e)
    | .ok p =>
      match p.tried with
      | .error e => .error (.grammar e)
      | .ok p => .ok p

end Program
end CurveSketch
