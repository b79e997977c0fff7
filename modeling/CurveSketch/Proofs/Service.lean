import CurveSketch.Proofs.Curve
import CurveSketch.Proofs.Nesting
import CurveSketch.Proofs.StackSafety
import CurveSketch.Service.Routes

/-!
# CurveSketch.Proofs.Service

Whom the service refuses, and that it never fails. Whatever the value of a body is, the routes that
take one answer with data or with one of four refusals (`compileRoute_expected` and the others):
what is compiled never leaves its stack, a canvas within the limits is never too large and a window
that is accepted has an extent. Only a body that exhausts the stack of its reader is answered in
another way; it opens more containers than are read inside each other (`handle_answers`).
-/

namespace CurveSketch

/-- The codes under which a request can be refused. -/
def refusalCodes : List String :=
  ["function_grapher.lex_error", "function_grapher.syntax_error",
   "function_grapher.invalid_request", "function_grapher.invalid_window"]

def Problem.IsRefusal (p : Problem) : Prop :=
  p.status = 400 ∧ p.code ∈ refusalCodes

namespace Problem

theorem isRefusal_invalid {code message : String} {details : Value} (h : code ∈ refusalCodes) :
    (invalid code message details).IsRefusal :=
  ⟨rfl, h⟩

theorem isRefusal_ofCompileError (e : CompileError) : (ofCompileError e).IsRefusal := by
  cases e with
  | lex e => exact isRefusal_invalid (by simp [refusalCodes])
  | grammar e => exact isRefusal_invalid (by simp [refusalCodes])

theorem isRefusal_invalidBody (details : Value) : (invalidBody details).IsRefusal :=
  isRefusal_invalid (by simp [refusalCodes])

theorem isRefusal_invalidRequest (message : String) : (invalidRequest message).IsRefusal :=
  isRefusal_invalid (by simp [refusalCodes])

theorem isRefusal_invalidWindow (message : String) : (invalidWindow message).IsRefusal :=
  isRefusal_invalid (by simp [refusalCodes])

end Problem

/-- Data or a refusal, and no error that nobody expects. -/
def Outcome.Expected : Outcome → Prop
  | .data _ => True
  | .problem p => p.IsRefusal
  | .escape _ => False

/-- The envelope of a success, for the request with that id. -/
def Reply.Succeeds (requestId : String) (r : Reply) : Prop :=
  r.status = 200 ∧ ∃ data, r.document = some (envelope (some requestId) true "data" data)

/-- The envelope of a refusal, for the request with that id. -/
def Reply.Refuses (requestId : String) (r : Reply) : Prop :=
  r.status = 400 ∧ ∃ p : Problem, p.code ∈ refusalCodes ∧
    r.document = some (envelope (some requestId) false "error" p.toValue)

/-- What is compiled has an answer at every place: nothing but the text can be at fault. -/
theorem Evaluation.ofText_eq_error {mode : LexMode} {limit : Int} {text : String} {x : Float}
    {fault : EvaluationFault} (h : ofText mode limit text x = .error fault) :
    ∃ e, fault = .compile e := by
  unfold ofText at h
  split at h
  · rename_i e _
    cases h
    exact ⟨e, rfl⟩
  · rename_i p hp
    obtain ⟨answer, hanswer, -⟩ := decided_of_balanced (Program.balanced_of_compile hp) x
    rw [hanswer] at h
    cases h

namespace Application

theorem valid_of_windowOfPairs {x y : Float × Float} {w : Window} (h : windowOfPairs x y = .ok w) :
    w.Valid := by
  unfold windowOfPairs at h
  split at h
  · cases h
  · rename_i hx
    split at h
    · cases h
    · rename_i hy
      cases h
      exact ⟨(Range.ofBounds_eq_ok.mp hx).1, (Range.ofBounds_eq_ok.mp hy).1⟩

theorem bodyValue_cases (r : Request) :
    (∃ body, bodyValue r = .ok body) ∨
      ∃ document container, r.body = some document ∧
        Value.depthLimit < Value.openings document ∧
        bodyValue r = .error (.tooDeep container) := by
  unfold bodyValue
  split
  · rename_i document hdocument
    split
    · split
      · exact .inl ⟨_, rfl⟩
      · exact .inl ⟨_, rfl⟩
      · rename_i container hdeep
        exact .inr ⟨document, container, hdocument, Value.depthLimit_lt_openings hdeep, rfl⟩
    · exact .inl ⟨_, rfl⟩
  · exact .inl ⟨_, rfl⟩

section Routes

variable {a : Application} {s : Settings}

theorem compileRoute_expected (hs : a.settings = .ok s) (body : Value) :
    (a.compileRoute body).Expected := by
  unfold compileRoute
  split
  · exact Problem.isRefusal_invalidBody _
  · rw [hs]
    simp only
    split
    · trivial
    · exact Problem.isRefusal_ofCompileError _

theorem evaluateRoute_expected (hs : a.settings = .ok s) (body : Value) :
    (a.evaluateRoute body).Expected := by
  unfold evaluateRoute
  split
  · exact Problem.isRefusal_invalidBody _
  · rw [hs]
    simp only
    split
    · trivial
    · exact Problem.isRefusal_ofCompileError _
    · rename_i fault hcompile hfault
      obtain ⟨e, rfl⟩ := Evaluation.ofText_eq_error hfault
      exact absurd rfl (hcompile e)

theorem sampleRoute_expected (hs : a.settings = .ok s) (hwidth : s.maxWidth < 2 ^ 53)
    (hheight : s.maxHeight < 2 ^ 53) (body : Value) : (a.sampleRoute body).Expected := by
  unfold sampleRoute
  split
  · exact Problem.isRefusal_invalidBody _
  · rename_i r _
    rw [hs]
    simp only
    split
    · exact Problem.isRefusal_invalidRequest _
    · rename_i hcanvas
      split
      · exact Problem.isRefusal_ofCompileError _
      · split
        · exact Problem.isRefusal_invalidWindow _
        · rw [Bool.or_eq_true, decide_eq_true_eq, decide_eq_true_eq] at hcanvas
          rw [Curve.ofProgram_eq (by omega) (by omega)]
          trivial

theorem zoomRoute_expected (body : Value) : (zoomRoute body).Expected := by
  unfold zoomRoute
  split
  · exact Problem.isRefusal_invalidBody _
  · split
    · exact Problem.isRefusal_invalidRequest _
    · split
      · exact Problem.isRefusal_invalidWindow _
      · split
        · trivial
        · exact Problem.isRefusal_invalidWindow _

theorem answer_eq_withBody (hs : a.settings = .ok s) (hwidth : s.maxWidth < 2 ^ 53)
    (hheight : s.maxHeight < 2 ^ 53) {route : Route} (hroute : route.isPost = true) {r : Request}
    (hsize : a.isOversized r = false) :
    ∃ f : Value → Outcome, (∀ body, (f body).Expected) ∧ a.answer route r = withBody r f := by
  unfold answer
  rw [hroute, hsize, Bool.and_false, if_neg Bool.false_ne_true]
  cases route with
  | compile => exact ⟨_, compileRoute_expected hs, rfl⟩
  | evaluate => exact ⟨_, evaluateRoute_expected hs, rfl⟩
  | sample => exact ⟨_, sampleRoute_expected hs hwidth hheight, rfl⟩
  | zoom => exact ⟨_, zoomRoute_expected, rfl⟩
  | home | file | vocabulary | defaultView => cases hroute

theorem reply_expected {o : Outcome} (h : o.Expected) (requestId : String) :
    ∃ answer, a.reply requestId o = .ok answer ∧
      (answer.Succeeds requestId ∨ answer.Refuses requestId) := by
  cases o with
  | data v => exact ⟨_, rfl, .inl ⟨rfl, v, rfl⟩⟩
  | problem p =>
    obtain ⟨hstatus, hcode⟩ := h
    refine ⟨_, rfl, .inr ⟨?_, p, hcode, rfl⟩⟩
    simp only [Reply.fail, Reply.chosenStatus, hstatus]
  | escape e => cases h

/-- The service succeeds or refuses, and has no errors of its own. No window that it accepts makes
the pixel transforms divide by zero. The one error that is left is that of the reader's stack, which
is exhausted by too many containers inside each other. -/
theorem handle_answers (hs : a.settings = .ok s) (hwidth : s.maxWidth < 2 ^ 53)
    (hheight : s.maxHeight < 2 ^ 53) {r : Request} {route : Route}
    (hpath : Route.ofPath? r.path = some route) (hroute : route.isPost = true)
    (hmethod : r.method = "POST") (hsize : a.isOversized r = false) (requestId : String) :
    (∀ body, (a.compileRoute body).Expected ∧ (a.evaluateRoute body).Expected ∧
      (a.sampleRoute body).Expected ∧ (zoomRoute body).Expected) ∧
    (∀ x y w, windowOfPairs x y = .ok w →
      (w.xRange.high - w.xRange.low == 0) = false ∧
      (w.yRange.high - w.yRange.low == 0) = false) ∧
    ((∃ answer, a.handle requestId r = .ok answer ∧
        (answer.Succeeds requestId ∨ answer.Refuses requestId)) ∨
      ∃ document container, r.body = some document ∧
        Value.depthLimit < Value.openings document ∧
        a.answer route r = .escape (.tooDeep container)) := by
  refine ⟨?_, ?_, ?_⟩
  · intro body
    exact ⟨compileRoute_expected hs body, evaluateRoute_expected hs body,
      sampleRoute_expected hs hwidth hheight body, zoomRoute_expected body⟩
  · intro x y w hw
    have hvalid := valid_of_windowOfPairs hw
    exact ⟨hvalid.1.extent_ne_zero, hvalid.2.extent_ne_zero⟩
  · obtain ⟨f, hexpected, hanswer⟩ := answer_eq_withBody hs hwidth hheight hroute hsize
    have hhandle : a.handle requestId r = a.reply requestId (a.answer route r) := by
      simp [handle, hpath, hmethod, hroute]
    rw [hhandle, hanswer, withBody]
    rcases bodyValue_cases r with ⟨body, hbody⟩ | ⟨document, container, hdocument, hdeep, hbody⟩
    · rw [hbody]
      exact .inl (reply_expected (hexpected body) requestId)
    · rw [hbody]
      exact .inr ⟨document, container, hdocument, hdeep, rfl⟩

/-- `1/x` is compiled by a service without a configuration. -/
theorem handle_answers_compile :
    ∃ answer, handle ⟨defaultBodyLimit, false, [], [], []⟩ "1"
      ⟨"POST", "/api/function_grapher/compile", "application/json",
        some "\x7b\"expression\": \"1/x\"\x7d"⟩ = .ok answer ∧
      (answer.Succeeds "1" ∨ answer.Refuses "1") := by
  have hsettings : settings ⟨defaultBodyLimit, false, [], [], []⟩ = .ok Settings.default := rfl
  have hpath : Route.ofPath? "/api/function_grapher/compile" = some .compile := by decide
  have hsize : isOversized ⟨defaultBodyLimit, false, [], [], []⟩
      ⟨"POST", "/api/function_grapher/compile", "application/json",
        some "\x7b\"expression\": \"1/x\"\x7d"⟩ = false := by decide
  obtain ⟨-, -, hanswer | ⟨document, container, hdocument, hdeep, -⟩⟩ :=
    handle_answers hsettings (by decide) (by decide) hpath rfl rfl hsize "1"
  · exact hanswer
  · cases hdocument
    exact absurd hdeep (by decide +kernel)

end Routes
end Application
end CurveSketch
