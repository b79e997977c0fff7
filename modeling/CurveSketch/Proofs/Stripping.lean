import CurveSketch.Proofs.Documents
import CurveSketch.Proofs.Relabelling
import CurveSketch.Proofs.Service
import CurveSketch.Proofs.Spacing

/-!
# CurveSketch.Proofs.Stripping

The service strips the white space around an expression before it compiles it, so what it answers is
about the stripped text. Blanks are no letters and have no case, so they leave the lower case of the
text between them as it is (`Text.lower_padded`) and have no tokens (`Scan.tokens_padded`). Hence a
text within the length limit and the stripped one are compiled alike, with all positions moved by
the number of white space characters in front (`Summary.ofText_strip`).
-/

namespace CurveSketch
namespace Text

/-! ### Stripped texts -/

theorem exists_trim (p : Char → Bool) (cs : List Char) :
    ∃ trail, cs = cs.takeWhile p ++ trim p cs ++ trail ∧ ∀ c ∈ trail, p c = true := by
  refine ⟨((cs.dropWhile p).reverse.takeWhile p).reverse, ?_, ?_⟩
  · rw [trim, List.append_assoc, ← List.reverse_append, List.takeWhile_append_dropWhile,
      List.reverse_reverse, List.takeWhile_append_dropWhile]
  · intro c hc
    exact List.mem_takeWhile_imp (List.mem_reverse.mp hc)

theorem dropWhile_append_trail {p : Char → Bool} {trail : List Char}
    (htrail : ∀ c ∈ trail, p c = true) (cs : List Char) :
    cs.dropWhile p = [] ∧ (cs ++ trail).dropWhile p = [] ∨
      (cs ++ trail).dropWhile p = cs.dropWhile p ++ trail := by
  induction cs with
  | nil => exact .inl ⟨rfl, List.dropWhile_eq_nil_iff.mpr htrail⟩
  | cons c rest ih =>
    cases hc : p c with
    | true =>
      rw [List.cons_append, List.dropWhile_cons_of_pos hc, List.dropWhile_cons_of_pos hc]
      exact ih
    | false =>
      have hc : ¬ p c = true := by simp [hc]
      rw [List.cons_append, List.dropWhile_cons_of_neg hc, List.dropWhile_cons_of_neg hc]
      exact .inr rfl

theorem trim_padded {p : Char → Bool} {lead trail : List Char} (hlead : ∀ c ∈ lead, p c = true)
    (htrail : ∀ c ∈ trail, p c = true) (cs : List Char) :
    trim p (lead ++ cs ++ trail) = trim p cs := by
  rw [trim, trim, List.append_assoc, List.dropWhile_append_of_pos hlead]
  rcases dropWhile_append_trail htrail cs with ⟨hnone, hwhole⟩ | hsome
  · rw [hnone, hwhole]
  · rw [hsome, List.reverse_append, List.dropWhile_append_of_pos]
    intro c hc
    exact htrail c (List.mem_reverse.mp hc)

/-- Blanks around a text are stripped at once or after the white space among them. -/
theorem strip_isBlank_strip (text : String) :
    strip isBlank (strip isWhiteSpace text) = strip isBlank text := by
  obtain ⟨trail, hsplit, htrail⟩ := exists_trim isWhiteSpace text.toList
  have hlead : ∀ c ∈ text.toList.takeWhile isWhiteSpace, isBlank c = true := by
    intro c hc
    exact isBlank_of_isWhiteSpace (List.mem_takeWhile_imp hc)
  have hsame := trim_padded hlead (fun c hc => isBlank_of_isWhiteSpace (htrail c hc))
    (trim isWhiteSpace text.toList)
  rw [← hsplit] at hsame
  rw [strip, strip, String.toList_ofList, strip, hsame]

/-! ### Lower case between blanks -/

theorem lowerFrom_blanks {lead : List Char} (hlead : ∀ c ∈ lead, isBlank c = true)
    (cs : List Char) : lowerFrom false (lead ++ cs) = lead ++ lowerFrom false cs := by
  induction lead with
  | nil => rfl
  | cons c lead ih =>
    have hc := hlead c (by simp)
    have hprecedes : letterPrecedes false c = false := by
      rw [letterPrecedes, isIgnorable_of_isBlank hc, if_neg Bool.false_ne_true,
        isCased_of_isBlank hc]
    obtain ⟨hsigma, hsame⟩ := settled_of_isBlank hc
    rw [List.cons_append, lowerFrom, if_neg hsigma, hsame, hprecedes,
      ih fun d hd => hlead d (by simp [hd]), List.singleton_append, List.cons_append]

section Trail

variable {trail : List Char} (htrail : ∀ c ∈ trail, isBlank c = true)

include htrail

theorem letterFollows_append (cs : List Char) :
    letterFollows (cs ++ trail) = letterFollows cs := by
  induction cs with
  | nil =>
    cases trail with
    | nil => rfl
    | cons c rest =>
      have hc := htrail c (by simp)
      rw [List.nil_append, letterFollows,
        List.dropWhile_cons_of_neg (by simp [isIgnorable_of_isBlank hc])]
      exact isCased_of_isBlank hc
  | cons c rest ih =>
    rw [List.cons_append, letterFollows, letterFollows]
    by_cases hc : isIgnorable c = true
    · rw [List.dropWhile_cons_of_pos hc, List.dropWhile_cons_of_pos hc]
      exact ih
    · rw [List.dropWhile_cons_of_neg hc, List.dropWhile_cons_of_neg hc]

theorem lowerFrom_append (before : Bool) (cs : List Char) :
    lowerFrom before (cs ++ trail) = lowerFrom before cs ++ trail := by
  induction cs generalizing before with
  | nil => exact lowerFrom_of_settled (fun c hc => settled_of_isBlank (htrail c hc)) before
  | cons c rest ih =>
    rw [List.cons_append, lowerFrom, lowerFrom, letterFollows_append htrail, ih]
    split
    · rfl
    · rw [List.append_assoc]

theorem lower_padded {lead : List Char} (hlead : ∀ c ∈ lead, isBlank c = true) (cs : List Char) :
    lower (lead ++ cs ++ trail) = lead ++ lower cs ++ trail := by
  rw [List.append_assoc, lower, lowerFrom_blanks hlead, lowerFrom_append htrail, List.append_assoc,
    lower]

end Trail
end Text

/-! ### Tokens between blanks -/

namespace Scan

theorem tokens_padded (mode : LexMode) {lead trail : List Char}
    (hlead : ∀ c ∈ lead, Text.isBlank c = true) (htrail : ∀ c ∈ trail, Text.isBlank c = true)
    (cs : List Char) :
    tokens mode 0 0 (lead ++ cs ++ trail) =
      match tokens mode 0 0 cs with
      | .ok ts => .ok (ts.map (Token.relabel (· + lead.length)))
      | .error e => .error (e.relabel (· + lead.length)) := by
  rw [tokens_append_blanks mode 0 htrail, tokens_blanks mode 0 hlead]
  exact tokens_add mode lead.length 0 0 cs

end Scan

/-! ### Summaries of stripped texts -/

namespace CompileError

def relabel (f : Nat → Nat) : CompileError → CompileError
  | lex e => lex (e.relabel f)
  | grammar e => grammar (e.relabel f)

def position? : CompileError → Option Nat
  | lex e => e.position?
  | grammar e => e.position?

def char? : CompileError → Option Char
  | lex e => e.char?
  | grammar _ => none

end CompileError

def Summary.relabel (f : Nat → Nat) (s : Summary) : Summary :=
  { s with tokens := s.tokens.map (Token.relabel f) }

def Summary.relabelled (f : Nat → Nat) :
    Except CompileError Summary → Except CompileError Summary
  | .ok summary => .ok (summary.relabel f)
  | .error e => .error (e.relabel f)

/-- How many characters white space has in front of a text. -/
def Text.margin (text : String) : Nat :=
  (text.toList.takeWhile isWhiteSpace).length

theorem Text.length_strip_le (text : String) :
    (strip isWhiteSpace text).toList.length ≤ text.toList.length := by
  obtain ⟨trail, hsplit, -⟩ := exists_trim isWhiteSpace text.toList
  have hlength := congrArg List.length hsplit
  rw [List.length_append, List.length_append] at hlength
  rw [strip, String.toList_ofList]
  omega

theorem Summary.ofText_eq (mode : LexMode) (limit : Int) (text : String) :
    ofText mode limit text =
      match tokenize mode limit text with
      | .error e => .error (.lex e)
      | .ok ts =>
        match Program.ofTokens ts (Text.strip Text.isBlank text) with
        | .error e => .error (.grammar e)
        | .ok p => .ok ⟨ts, p⟩ := by
  rw [ofText, Program.compile_eq]
  cases tokenize mode limit text with
  | error e => rfl
  | ok ts =>
    simp only
    cases Program.ofTokens ts (Text.strip Text.isBlank text) <;> rfl

section Strip

variable (mode : LexMode) {limit : Int} {text : String} (hlimit : text.toList.length ≤ limit)

include hlimit

theorem tokenize_strip :
    tokenize mode limit text =
      match tokenize mode limit (Text.strip Text.isWhiteSpace text) with
      | .ok ts => .ok (ts.map (Token.relabel (· + Text.margin text)))
      | .error e => .error (e.relabel (· + Text.margin text)) := by
  obtain ⟨trail, hsplit, htrail⟩ := Text.exists_trim Text.isWhiteSpace text.toList
  have hlead : ∀ c ∈ text.toList.takeWhile Text.isWhiteSpace, Text.isBlank c = true := by
    intro c hc
    exact Text.isBlank_of_isWhiteSpace (List.mem_takeWhile_imp hc)
  have htrail : ∀ c ∈ trail, Text.isBlank c = true := by
    intro c hc
    exact Text.isBlank_of_isWhiteSpace (htrail c hc)
  have hlower := Text.lower_padded htrail hlead (Text.trim Text.isWhiteSpace text.toList)
  have hstripped := Text.length_strip_le text
  rw [← hsplit] at hlower
  rw [tokenize, tokenize, if_neg (by omega), if_neg (by omega), hlower,
    Scan.tokens_padded mode hlead htrail, Text.strip, String.toList_ofList]
  rfl

/-- A text within the limit and the stripped one are summed up alike, but for the places. -/
theorem Summary.ofText_strip :
    Summary.ofText mode limit text = Summary.relabelled (· + Text.margin text)
      (Summary.ofText mode limit (Text.strip Text.isWhiteSpace text)) := by
  rw [ofText_eq, ofText_eq, tokenize_strip mode hlimit, Text.strip_isBlank_strip]
  cases tokenize mode limit (Text.strip Text.isWhiteSpace text) with
  | error e => rfl
  | ok ts =>
    simp only [Program.ofTokens_relabel]
    cases Program.ofTokens ts (Text.strip Text.isBlank text) <;> rfl

end Strip

theorem Summary.ofText_tooLong (mode : LexMode) {limit : Int} {text : String}
    (h : limit < text.toList.length) :
    Summary.ofText mode limit text = .error (.lex (.tooLong limit)) := by
  rw [ofText, tokenize, if_pos h]

/-! ### Places in the text -/

section Places

variable {mode : LexMode} {limit : Int} {text : String}

theorem position_of_tokenize {ts : List Token} (h : tokenize mode limit text = .ok ts) :
    ∀ t ∈ ts, t.position < (Text.lower text.toList).length := by
  intro t ht
  have := Scan.position_of_tokens (tokenize_eq_ok.mp h).2 t ht
  omega

theorem Summary.position_of_ofText {summary : Summary} (h : ofText mode limit text = .ok summary) :
    ∀ t ∈ summary.tokens, t.position < (Text.lower text.toList).length := by
  rw [ofText_eq] at h
  split at h
  · cases h
  · rename_i hts
    split at h
    · cases h
    · cases h
      exact position_of_tokenize hts

theorem Summary.place_of_ofText {e : CompileError} {i : Nat} (h : ofText mode limit text = .error e)
    (hi : e.position? = some i) : i < (Text.lower text.toList).length ∧
      ∀ c, e.char? = some c → (Text.lower text.toList)[i]? = some c := by
  rw [ofText_eq] at h
  split at h
  · rename_i e hlex
    cases h
    unfold tokenize at hlex
    split at hlex
    · cases hlex
      cases hi
    · obtain ⟨c, q, rfl, hc⟩ := Scan.unexpected_of_tokens hlex
      rw [Nat.zero_add] at hi
      cases hi
      refine ⟨(List.getElem?_eq_some_iff.mp hc).1, ?_⟩
      intro d hd
      cases hd
      exact hc
  · rename_i ts hts
    split at h
    · rename_i e hprogram
      cases h
      obtain ⟨t, ht, rfl⟩ := Program.exists_token_of_position? hprogram hi
      refine ⟨position_of_tokenize hts t ht, ?_⟩
      intro c hc
      cases hc
    · cases h

end Places

/-! ### The service -/

/-- The problem tells the message and the place of the error. Of an error of the scanner it tells the
character as well, or that there is none. -/
def Problem.Tells (p : Problem) (e : CompileError) : Prop :=
  p.message = e.message ∧ ∃ details, p.details = .object details ∧
    Value.lookup? "position" details = some (placeValue e.position?) ∧
    Value.lookup? "char" details =
      match e with
      | .lex e => some (charValue e.char?)
      | .grammar _ => none

theorem Problem.tells_ofCompileError (e : CompileError) : (ofCompileError e).Tells e := by
  refine ⟨?_, ?_⟩
  · cases e <;> rfl
  · cases e with
    | lex e => exact ⟨_, rfl, rfl, rfl⟩
    | grammar e => exact ⟨_, rfl, rfl, rfl⟩

namespace Application

/-- A request to compile that text and no more, in a body that is not too large. -/
structure Asks (a : Application) (r : Request) (text : String) : Prop where
  path : Route.ofPath? r.path = some .compile
  method : r.method = "POST"
  size : a.isOversized r = false
  body : bodyValue r = .ok (.object [("expression", .text text)])

def expressionRequest (text : String) : Request :=
  ⟨"POST", Route.compile.path, "application/json", some (expressionBody text)⟩

theorem asks_expressionRequest {a : Application} {text : String}
    (h : (expressionBody text).utf8ByteSize ≤ a.bodyLimit) :
    a.Asks (expressionRequest text) text where
  path := by
    show Route.ofPath? Route.compile.path = some .compile
    decide
  method := rfl
  size := by
    have hsize : ¬ a.bodyLimit < (expressionBody text).utf8ByteSize := by omega
    simp only [isOversized, expressionRequest, hsize, decide_false, Bool.and_false]
  body := bodyValue_expressionBody _ _ text

variable {a : Application} {s : Settings} {r : Request} {text : String}

theorem handle_of_asks (hs : a.settings = .ok s) (hr : a.Asks r text) (requestId : String) :
    a.handle requestId r =
      match Summary.ofText s.lexMode s.maxExpressionLength
          (Text.strip Text.isWhiteSpace text) with
      | .ok summary => .ok (.ok (some requestId) 200 summary.toValue)
      | .error e => .ok (.fail (some requestId) none (.ofCompileError e)) := by
  have hrequest : ExpressionRequest.ofValue (.object [("expression", .text text)]) =
      .ok ⟨Text.strip Text.isWhiteSpace text, none⟩ := rfl
  have hhandle : a.handle requestId r =
      a.reply requestId (a.compileRoute (.object [("expression", .text text)])) := by
    simp [handle, hr.path, hr.method, answer, hr.size, Route.isPost, withBody, hr.body]
  rw [hhandle, compileRoute, hrequest, hs]
  simp only [modeOf, Option.getD_none]
  cases Summary.ofText s.lexMode s.maxExpressionLength (Text.strip Text.isWhiteSpace text) <;> rfl

/-- What the service answers about an expression is the summary of the stripped text, or the place
and the character of its error; all places are those of the stripped text in lower case. A text
within the limit has the same summary or the same error by itself, with the places moved by the
white space in front, and a text beyond the limit has no summary. -/
theorem handle_compile (hs : a.settings = .ok s) (hr : a.Asks r text) (requestId : String) :
    let stripped := Text.strip Text.isWhiteSpace text
    (∀ summary, Summary.ofText s.lexMode s.maxExpressionLength stripped = .ok summary →
      a.handle requestId r = .ok (.ok (some requestId) 200 summary.toValue) ∧
      ∀ t ∈ summary.tokens, t.position < (Text.lower stripped.toList).length) ∧
    (∀ e, Summary.ofText s.lexMode s.maxExpressionLength stripped = .error e →
      (∃ p, a.handle requestId r = .ok (.fail (some requestId) none p) ∧ p.IsRefusal ∧ p.Tells e) ∧
      ∀ i, e.position? = some i → i < (Text.lower stripped.toList).length ∧
        ∀ c, e.char? = some c → (Text.lower stripped.toList)[i]? = some c) ∧
    (text.toList.length ≤ s.maxExpressionLength →
      Summary.ofText s.lexMode s.maxExpressionLength text =
        Summary.relabelled (· + Text.margin text)
          (Summary.ofText s.lexMode s.maxExpressionLength stripped)) ∧
    (s.maxExpressionLength < text.toList.length →
      Summary.ofText s.lexMode s.maxExpressionLength text =
        .error (.lex (.tooLong s.maxExpressionLength))) := by
  have hanswer := handle_of_asks hs hr requestId
  dsimp only
  refine ⟨?_, ?_, ?_, ?_⟩
  · intro summary hsummary
    rw [hsummary] at hanswer
    exact ⟨hanswer, Summary.position_of_ofText hsummary⟩
  · intro e he
    rw [he] at hanswer
    refine ⟨⟨_, hanswer, ?_, Problem.tells_ofCompileError e⟩, ?_⟩
    · exact Problem.isRefusal_ofCompileError e
    · intro i hi
      exact Summary.place_of_ofText he hi
  · intro hlimit
    exact Summary.ofText_strip s.lexMode (by omega)
  · intro hlimit
    exact Summary.ofText_tooLong s.lexMode (by omega)

/-- The question mark of `  2 ? x` is reported at place 2, and by the engine itself at place 4. -/
theorem handle_compile_question :
    ∃ p, handle ⟨defaultBodyLimit, false, [], [], []⟩ "1" (expressionRequest "  2 ? x") =
        .ok (.fail (some "1") none p) ∧
      p.Tells (.lex (.unexpected '?' 2)) ∧
      Summary.ofText .strict 256 "  2 ? x" = .error (.lex (.unexpected '?' 4)) := by
  have hsettings : settings ⟨defaultBodyLimit, false, [], [], []⟩ = .ok Settings.default := rfl
  have hasks : Asks ⟨defaultBodyLimit, false, [], [], []⟩ (expressionRequest "  2 ? x")
      "  2 ? x" :=
    asks_expressionRequest (by decide)
  have hstripped : Summary.ofText Settings.default.lexMode Settings.default.maxExpressionLength
      (Text.strip Text.isWhiteSpace "  2 ? x") = .error (.lex (.unexpected '?' 2)) := by
    rfl
  obtain ⟨-, hfailure, hmoved, -⟩ := handle_compile hsettings hasks "1"
  obtain ⟨⟨p, hanswer, -, htells⟩, -⟩ := hfailure _ hstripped
  have hmoved := hmoved (by decide)
  rw [hstripped] at hmoved
  exact ⟨p, hanswer, htells, hmoved⟩

/-- The variable of ` x` has place 0 in the answer of the service, and place 1 in the summary of the
text. -/
theorem compile_indented :
    settings ⟨defaultBodyLimit, false, [], [], []⟩ = .ok Settings.default ∧
    ∃ r data summary, Asks ⟨defaultBodyLimit, false, [], [], []⟩ r " x" ∧
      handle ⟨defaultBodyLimit, false, [], [], []⟩ "1" r = .ok (.ok (some "1") 200 data) ∧
      Summary.ofText .strict 256 " x" = .ok summary ∧ data ≠ summary.toValue := by
  have hsettings : settings ⟨defaultBodyLimit, false, [], [], []⟩ = .ok Settings.default := rfl
  have hasks : Asks ⟨defaultBodyLimit, false, [], [], []⟩ (expressionRequest " x") " x" :=
    asks_expressionRequest (by decide)
  have hstripped : Summary.ofText Settings.default.lexMode Settings.default.maxExpressionLength
      (Text.strip Text.isWhiteSpace " x") = .ok ⟨[⟨.var, 0⟩], ⟨[.var], "x"⟩⟩ := by
    rfl
  have hanswer := handle_of_asks hsettings hasks "1"
  rw [hstripped] at hanswer
  refine ⟨hsettings, _, _, ⟨[⟨.var, 1⟩], ⟨[.var], "x"⟩⟩, hasks, hanswer, by rfl, ?_⟩
  intro heq
  simp [Summary.toValue, Token.toValue] at heq

end Application
end CurveSketch
