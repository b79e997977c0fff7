import CurveSketch.Token
import CurveSketch.Text.Blank
import CurveSketch.Text.Case
import CurveSketch.Decimal.Reading

/-!
# CurveSketch.Token.Scan

From text to tokens. The text is put into lower case and scanned from the left: blanks are passed
over, and at every other place the longest numeral, word or symbol is one token. A character that
starts none of them is an error in strict mode and passed over in lenient mode. Positions count
the characters of the lower-case text; the length limit counts those of the given one.
-/

namespace CurveSketch

inductive LexMode where
  | strict
  | lenient
  deriving DecidableEq, Repr

inductive LexError where
  | notText
  | unknownMode
  | tooLong (limit : Int)
  | unexpected (char : Char) (position : Nat)
  deriving DecidableEq

namespace LexError

def message : LexError → String
  | notText => "Expression must be a string"
  | unknownMode => "lex_mode must be 'strict' or 'lenient'"
  | tooLong limit => s!"Expression is too long (limit {limit} characters)"
  | unexpected char position => s!"Unexpected character '{char}' at position {position}"

def position? : LexError → Option Nat
  | unexpected _ position => some position
  | _ => none

def char? : LexError → Option Char
  | unexpected char _ => some char
  | _ => none

end LexError

namespace LexMode

def name : LexMode → String
  | strict => "strict"
  | lenient => "lenient"

/-- The mode of that name, spelled exactly so. -/
def ofName? (s : String) : Option LexMode :=
  if s == "strict" then some strict
  else if s == "lenient" then some lenient
  else none

def ofName (s : String) : Except LexError LexMode :=
  match ofName? s with
  | some mode => .ok mode
  | none => .error .unknownMode

theorem ofName?_name (mode : LexMode) : ofName? mode.name = some mode := by
  cases mode <;> decide

theorem ofName?_eq_some {s : String} {mode : LexMode} : ofName? s = some mode ↔ s = mode.name := by
  constructor
  · intro h
    unfold ofName? at h
    split at h
    · rename_i hs
      cases h
      exact eq_of_beq hs
    · split at h
      · rename_i hs
        cases h
        exact eq_of_beq hs
      · cases h
  · intro h
    rw [h, ofName?_name]

end LexMode

namespace Scan

def isLetter (c : Char) : Bool :=
  'a' ≤ c && c ≤ 'z'

def isSymbol (c : Char) : Bool :=
  c == '+' || c == '-' || c == '*' || c == '/' || c == '^' || c == '(' || c == ')'

/-- The length of the longest numeral at the start: digits, digits with a point and optional
digits, or a point with digits; 0 if there is none. -/
def numeralLength (cs : List Char) : Nat :=
  let whole := (cs.takeWhile Char.isDigit).length
  match cs.dropWhile Char.isDigit with
  | '.' :: rest =>
    let fraction := (rest.takeWhile Char.isDigit).length
    if whole == 0 && fraction == 0 then 0 else whole + 1 + fraction
  | _ => whole

def wordLength (cs : List Char) : Nat :=
  (cs.takeWhile isLetter).length

def symbolLength : List Char → Nat
  | [] => 0
  | c :: _ => if isSymbol c then 1 else 0

/-- The length of the longest lexeme at the start; 0 if there is none. -/
def lexemeLength (cs : List Char) : Nat :=
  if numeralLength cs ≠ 0 then numeralLength cs
  else if wordLength cs ≠ 0 then wordLength cs
  else symbolLength cs

def digit (c : Char) : Nat :=
  c.toNat - '0'.toNat

def numeralValue (cs : List Char) : Float :=
  let whole := cs.takeWhile Char.isDigit
  let fraction := (cs.dropWhile Char.isDigit).drop 1
  Decimal.Scientific.toFloat ⟨Decimal.ofDigits ((whole ++ fraction).map digit), -fraction.length⟩

/-- The lexeme of a word: the variable, a constant's number, or the name of a function. -/
def wordLexeme (word : String) : Lexeme :=
  if word == variableName then .var
  else
    match constants.find? fun entry => entry.1 == word with
    | some entry => .number entry.2
    | none => .function word

def symbolLexeme (c : Char) : Lexeme :=
  if c == '(' then .leftParen
  else if c == ')' then .rightParen
  else .operator (String.ofList [c])

/-- The lexeme that a slice of the text is, given as its first character and the others. -/
def lexeme (first : Char) (others : List Char) : Lexeme :=
  if isSymbol first then symbolLexeme first
  else if isLetter first then wordLexeme (String.ofList (first :: others))
  else .number (numeralValue (first :: others))

/-- The tokens of a text that starts at `position`; the first `skip` characters belong to the
lexeme that was read last. -/
def tokens (mode : LexMode) : Nat → Nat → List Char → Except LexError (List Token)
  | _, _, [] => .ok []
  | position, skip + 1, _ :: rest => tokens mode (position + 1) skip rest
  | position, 0, c :: rest =>
    if Text.isBlank c then tokens mode (position + 1) 0 rest
    else
      match lexemeLength (c :: rest) with
      | 0 =>
        match mode with
        | .strict => .error (.unexpected c position)
        | .lenient => tokens mode (position + 1) 0 rest
      | length + 1 =>
        match tokens mode (position + 1) length rest with
        | .error e => .error e
        | .ok ts => .ok (⟨lexeme c (rest.take length), position⟩ :: ts)

/-- The longest lexeme at a place of the text. -/
def sliceAt (cs : List Char) (i : Nat) : List Char :=
  (cs.drop i).take (lexemeLength (cs.drop i))

/-- Every token is what the longest lexeme at its place is read as. -/
theorem slice_of_tokens {mode : LexMode} {position skip : Nat} {cs : List Char} {ts : List Token}
    (h : tokens mode position skip cs = .ok ts) : ∀ t ∈ ts, ∃ i c others,
      t.position = position + i ∧ sliceAt cs i = c :: others ∧ t.lexeme = lexeme c others := by
  induction cs generalizing position skip ts with
  | nil =>
    cases h
    simp
  | cons c rest ih =>
    have hrest {skip : Nat} {us : List Token}
        (hus : tokens mode (position + 1) skip rest = .ok us) : ∀ t ∈ us, ∃ i d others,
          t.position = position + i ∧ sliceAt (c :: rest) i = d :: others ∧
            t.lexeme = lexeme d others := by
      intro t ht
      obtain ⟨i, d, others, hposition, hread⟩ := ih hus t ht
      exact ⟨i + 1, d, others, by omega, hread⟩
    cases skip with
    | succ skip => exact hrest h
    | zero =>
      simp only [tokens] at h
      split at h
      · exact hrest h
      · split at h
        · split at h
          · cases h
          · exact hrest h
        · rename_i length hlength
          split at h
          · cases h
          · rename_i us hus
            cases h
            intro t ht
            rcases List.mem_cons.mp ht with rfl | ht
            · refine ⟨0, c, rest.take length, rfl, ?_, rfl⟩
              rw [sliceAt, List.drop_zero, hlength, List.take_succ_cons]
            · exact hrest hus t ht

end Scan

def tokenize (mode : LexMode) (limit : Int) (text : String) : Except LexError (List Token) :=
  if limit < text.toList.length then .error (.tooLong limit)
  else Scan.tokens mode 0 0 (Text.lower text.toList)

theorem tokenize_eq_ok {mode : LexMode} {limit : Int} {text : String} {ts : List Token} :
    tokenize mode limit text = .ok ts ↔
      text.toList.length ≤ limit ∧ Scan.tokens mode 0 0 (Text.lower text.toList) = .ok ts := by
  unfold tokenize
  split
  case isTrue hlong =>
    constructor
    · intro h
      cases h
    · rintro ⟨hlength, -⟩
      omega
  case isFalse hlong =>
    exact ⟨fun h => ⟨by omega, h⟩, fun h => h.2⟩

end CurveSketch
