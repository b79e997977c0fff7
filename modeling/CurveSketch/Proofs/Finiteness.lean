import CurveSketch.Proofs.Service
import CurveSketch.Proofs.Sessions
import CurveSketch.Proofs.Slices

/-!
# CurveSketch.Proofs.Finiteness

Which answers are documents without infinities. Tokens are read from texts that are too short to
write an infinite number, results and rows are checked before they are answered, and windows have
finite bounds, so the data of every success are finite (`Value.Finite`) but for one thing: an
evaluation repeats the `x` that it was asked for, which may be infinite or no number at all
(`handle_finite`, `evaluate_infinite`).
-/

namespace CurveSketch
namespace Value

mutual

def doubles : Value → List Float
  | real x => [x]
  | list items => doublesOfItems items
  | object fields => doublesOfFields fields
  | brokenObject fields => doublesOfFields fields
  | _ => []

def doublesOfItems : List Value → List Float
  | [] => []
  | v :: rest => doubles v ++ doublesOfItems rest

def doublesOfFields : List (String × Value) → List Float
  | [] => []
  | (_, v) :: rest => doubles v ++ doublesOfFields rest

end

/-- Neither an infinity nor a NaN stands anywhere in the value. -/
def Finite (v : Value) : Prop :=
  ∀ x ∈ v.doubles, x.isFinite = true

@[simp] theorem finite_null : Finite null := by
  simp [Finite, doubles]

@[simp] theorem finite_bool (b : Bool) : Finite (bool b) := by
  simp [Finite, doubles]

@[simp] theorem finite_int (n : Int) : Finite (int n) := by
  simp [Finite, doubles]

@[simp] theorem finite_text (s : String) : Finite (text s) := by
  simp [Finite, doubles]

@[simp] theorem finite_real (x : Float) : Finite (real x) ↔ x.isFinite = true := by
  simp [Finite, doubles]

@[simp] theorem finite_list (items : List Value) :
    Finite (list items) ↔ ∀ v ∈ items, Finite v := by
  unfold Finite
  rw [doubles]
  induction items with
  | nil => simp [doublesOfItems]
  | cons v rest ih =>
    rw [doublesOfItems, List.forall_mem_append, ih, List.forall_mem_cons]

@[simp] theorem finite_object (fields : List (String × Value)) :
    Finite (object fields) ↔ ∀ field ∈ fields, Finite field.2 := by
  unfold Finite
  rw [doubles]
  induction fields with
  | nil => simp [doublesOfFields]
  | cons field rest ih =>
    rw [doublesOfFields, List.forall_mem_append, ih, List.forall_mem_cons]

end Value

open Value

/-! ### What the engine answers -/

theorem Token.finite_toValue {t : Token} (h : ∀ x, t.lexeme = .number x → x.isFinite = true) :
    t.toValue.Finite := by
  obtain ⟨lexeme, position⟩ := t
  have hvalue : lexeme.value.Finite := by
    cases lexeme with
    | number x => exact (finite_real x).mpr (h x rfl)
    | var | function | operator | leftParen | rightParen => exact finite_text _
  simp [toValue, hvalue]

theorem Summary.finite_toValue {mode : LexMode} {limit : Int} {text : String} {s : Summary}
    (h : ofText mode limit text = .ok s) (hlimit : limit ≤ 308) : s.toValue.Finite := by
  unfold ofText at h
  split at h
  · cases h
  · rename_i ts hts
    split at h
    · cases h
    · cases h
      have htokens : ∀ t ∈ ts, t.toValue.Finite := by
        intro t ht
        exact Token.finite_toValue fun x hx => isFinite_of_tokenize hts hlimit ht hx
      simpa [toValue] using htokens

/-- An evaluation answers with its `x` and, where there is one, a finite result. -/
theorem Evaluation.finite_toValue {mode : LexMode} {limit : Int} {text : String} {x : Float}
    {e : Evaluation} (h : ofText mode limit text x = .ok e) :
    e.toValue.Finite ↔ x.isFinite = true := by
  unfold ofText at h
  split at h
  · cases h
  · rename_i p hp
    obtain ⟨answer, hanswer, -, rfl, hdecided⟩ :=
      decided_of_balanced (Program.balanced_of_compile hp) x
    rw [hanswer] at h
    cases h
    rcases hdecided with ⟨v, hresult, hfinite, herror⟩ | ⟨message, hresult, herror⟩
    · simp [toValue, hresult, herror, hfinite]
    · simp [toValue, hresult, herror]

theorem Range.finite_toValue {r : Range} (h : r.Valid) : r.toValue.Finite := by
  simp [toValue, h.1, h.2.1]

theorem Window.finite_toValue {w : Window} (h : w.Valid) : w.toValue.Finite := by
  simp [toValue, Range.finite_toValue h.1, Range.finite_toValue h.2]

theorem isFinite_column {i : Nat} (h : i ≤ 2 ^ 63) : (Float.ofNat i).isFinite = true := by
  rcases Nat.eq_zero_or_pos i with rfl | hpos
  · exact Decimal.isFinite_ofNat (by decide)
  · refine (Decimal.ofNat_isNearest hpos).isFinite_iff.mpr ?_
    calc (i : ℚ) ≤ 2 ^ 63 := by exact_mod_cast h
      _ ≤ 10 ^ 63 := by gcongr; norm_num
      _ ≤ 10 ^ 308 := pow_le_pow_right₀ (by norm_num) (by norm_num)
      _ < Decimal.overflow := Scan.pow_308_lt_overflow

theorem lt_of_isCountable {width : Nat} (h : isCountable width = true) : width < 2 ^ 63 := by
  unfold isCountable columnLimit at h
  rw [Bool.and_eq_true, decide_eq_true_eq, decide_eq_true_eq] at h
  omega

theorem finite_of_mem_samples {p : Program} {width height : Nat} {w : Window} {workers : Int}
    {entries : List Sample} {q : Point} (h : samples p width height w workers = .ok entries)
    (hq : some q ∈ entries) : q.toValue.Finite := by
  unfold samples at h
  split at h
  · cases h
  · split at h
    · cases h
    · rename_i hcountable
      have hwidth := lt_of_isCountable (by simpa using hcountable)
      simp only at h
      split at h
      · rename_i rows _
        rw [Workers.mapWith_eq_map] at h
        cases h
        obtain ⟨⟨x, i⟩, hentry, hcolumn⟩ := List.mem_map.mp hq
        have hi := List.snd_lt_of_mem_zipIdx hentry
        rw [length_columnInputs] at hi
        obtain ⟨y, -, rfl, hrow⟩ := (shows_column p w rows i x).point q hcolumn
        have hplace : (Float.ofNat i).isFinite = true := isFinite_column (by simp at hi; omega)
        simp only [Point.toValue, finite_list, List.forall_mem_cons, finite_real]
        exact ⟨hplace, hrow, by simp⟩
      · split at h
        · cases h
        · cases h
          obtain ⟨entry, -, hnone⟩ := List.mem_map.mp hq
          cases hnone

theorem Polyline.mem_of_mem_split {height : Number} {entries : List Sample} {line : List Point}
    {q : Point} (hline : line ∈ split height entries) (hq : q ∈ line) : some q ∈ entries := by
  have hmem : q ∈ (split height entries).flatten := List.mem_flatten.mpr ⟨line, hline, hq⟩
  rw [flatten_split, map_snd_placedFrom] at hmem
  exact List.reduceOption_mem_iff.mp hmem

theorem Curve.finite_toValue {p : Program} {width height : Nat} {w : Window} {workers : Int}
    {c : Curve} (hw : w.Valid) (h : ofProgram p width height w workers = .ok c) :
    c.toValue.Finite := by
  unfold ofProgram at h
  split at h
  · cases h
  · rename_i entries hentries
    cases h
    have hentry : ∀ entry ∈ entries, (entryValue entry).Finite := by
      intro entry hentry
      cases entry with
      | none => exact finite_null
      | some q => exact finite_of_mem_samples hentries hentry
    have hline : ∀ line ∈ Polyline.split (.whole height) entries,
        ∀ q ∈ line, q.toValue.Finite := by
      intro line hline q hq
      exact finite_of_mem_samples hentries (Polyline.mem_of_mem_split hline hq)
    simpa [toValue, outline, segmentsValue, Window.finite_toValue hw] using ⟨hentry, hline⟩

/-! ### What the routes answer -/

namespace Application

section Routes

variable {a : Application} {body data : Value}

theorem withBody_eq_data {r : Request} {f : Value → Outcome} (h : withBody r f = .data data) :
    ∃ body, bodyValue r = .ok body ∧ f body = .data data := by
  unfold withBody at h
  split at h
  · rename_i body hbody
    exact ⟨body, hbody, h⟩
  · cases h

theorem compileRoute_finite (hs : a.settings = .ok .default)
    (h : a.compileRoute body = .data data) : data.Finite := by
  unfold compileRoute at h
  split at h
  · cases h
  · rw [hs] at h
    simp only at h
    split at h
    · rename_i hsummary
      cases h
      exact Summary.finite_toValue hsummary (by decide)
    · cases h

theorem evaluateRoute_finite (hs : a.settings = .ok .default)
    (h : a.evaluateRoute body = .data data) :
    ∃ request, EvaluateRequest.ofValue body = .ok request ∧
      (data.Finite ↔ request.x.isFinite = true) := by
  unfold evaluateRoute at h
  split at h
  · cases h
  · rename_i request hrequest
    rw [hs] at h
    simp only at h
    split at h
    · rename_i hevaluation
      cases h
      exact ⟨request, hrequest, Evaluation.finite_toValue hevaluation⟩
    · cases h
    · cases h

theorem sampleRoute_finite (hs : a.settings = .ok .default)
    (h : a.sampleRoute body = .data data) : data.Finite := by
  unfold sampleRoute at h
  split at h
  · cases h
  · rw [hs] at h
    simp only at h
    split at h
    · cases h
    · split at h
      · cases h
      · split at h
        · cases h
        · rename_i hw
          split at h
          · rename_i hcurve
            cases h
            exact Curve.finite_toValue (valid_of_windowOfPairs hw) hcurve
          · cases h
          · cases h

theorem zoomRoute_finite (h : zoomRoute body = .data data) : data.Finite := by
  unfold zoomRoute at h
  split at h
  · cases h
  · split at h
    · cases h
    · split at h
      · cases h
      · split at h
        · rename_i hzoom
          cases h
          exact Window.finite_toValue (Window.zoom_eq_ok.mp hzoom).valid
        · cases h

theorem status_of_answer (hs : a.settings = .ok .default) {route : Route}
    (hroute : route.isPost = true) {r : Request} {p : Problem}
    (h : a.answer route r = .problem p) : p.status ≠ 200 := by
  cases hsize : a.isOversized r with
  | true =>
    simp only [answer, hroute, hsize, Bool.and_self, if_true] at h
    cases h
    decide
  | false =>
    obtain ⟨f, hexpected, hanswer⟩ :=
      answer_eq_withBody hs (by decide) (by decide) hroute hsize
    rw [hanswer, withBody] at h
    split at h
    · rename_i body _
      have hrefusal := hexpected body
      rw [h] at hrefusal
      rw [hrefusal.1]
      decide
    · cases h

theorem reply_eq_success {requestId : String} {o : Outcome} {answer : Reply}
    (h : a.reply requestId o = .ok answer) (hstatus : answer.status = 200)
    (hproblem : ∀ p, o = .problem p → p.status ≠ 200) :
    ∃ data, o = .data data ∧
      answer.document = some (Reply.envelope (some requestId) true "data" data) := by
  cases o with
  | data v =>
    cases h
    exact ⟨v, rfl, rfl⟩
  | problem p =>
    cases h
    simp only [Reply.fail, Reply.chosenStatus] at hstatus
    exact absurd hstatus (hproblem p rfl)
  | escape e =>
    simp only [reply] at h
    split at h
    · cases h
    · cases h
      cases hstatus

/-- The `x` at which a request asks for a value, if its body is one of an evaluation. -/
def askedFor? (r : Request) : Option Float :=
  match bodyValue r with
  | .ok body =>
    match EvaluateRequest.ofValue body with
    | .ok request => some request.x
    | .error _ => none
  | .error _ => none

theorem answer_finite (hs : a.settings = .ok .default) {route : Route}
    (hroute : route.isPost = true) {r : Request} (h : a.answer route r = .data data) :
    data.Finite ↔ (route = .evaluate → ∀ x ∈ askedFor? r, x.isFinite = true) := by
  unfold answer at h
  split at h
  · cases h
  · cases route with
    | home | file | vocabulary | defaultView => cases hroute
    | compile =>
      obtain ⟨body, -, hdata⟩ := withBody_eq_data h
      simp [compileRoute_finite hs hdata]
    | sample =>
      obtain ⟨body, -, hdata⟩ := withBody_eq_data h
      simp [sampleRoute_finite hs hdata]
    | zoom =>
      obtain ⟨body, -, hdata⟩ := withBody_eq_data h
      simp [zoomRoute_finite hdata]
    | evaluate =>
      obtain ⟨body, hbody, hdata⟩ := withBody_eq_data h
      obtain ⟨request, hrequest, hfinite⟩ := evaluateRoute_finite hs hdata
      simp [hfinite, askedFor?, hbody, hrequest]

theorem handle_eq_success (hs : a.settings = .ok .default) {r : Request} {route : Route}
    (hpath : Route.ofPath? r.path = some route) (hroute : route.isPost = true)
    (hmethod : r.method = "POST") {requestId : String} {answer : Reply}
    (h : a.handle requestId r = .ok answer) (hstatus : answer.status = 200) :
    ∃ data, a.answer route r = .data data ∧
      answer.document = some (Reply.envelope (some requestId) true "data" data) := by
  have hreply : a.reply requestId (a.answer route r) = .ok answer := by
    simpa [handle, hpath, hmethod, hroute] using h
  exact reply_eq_success hreply hstatus fun p => status_of_answer hs hroute

/-- A success of a route that takes a body has data, and all doubles in them are finite unless an
evaluation was asked for at an `x` that is not. -/
theorem handle_finite (hs : a.settings = .ok .default) {r : Request} {route : Route}
    (hpath : Route.ofPath? r.path = some route) (hroute : route.isPost = true)
    (hmethod : r.method = "POST") {requestId : String} {answer : Reply}
    (h : a.handle requestId r = .ok answer) (hstatus : answer.status = 200) :
    ∃ data, answer.document = some (Reply.envelope (some requestId) true "data" data) ∧
      (data.Finite ↔ (route = .evaluate → ∀ x ∈ askedFor? r, x.isFinite = true)) := by
  obtain ⟨data, hdata, hdocument⟩ := handle_eq_success hs hpath hroute hmethod h hstatus
  exact ⟨data, hdocument, answer_finite hs hroute hdata⟩

theorem exists_answer {requestId : String} {r : Request} {status : Nat}
    (h : (a.handle requestId r).toOption.map Reply.status = some status) :
    ∃ answer, a.handle requestId r = .ok answer ∧ answer.status = status := by
  cases hanswer : a.handle requestId r with
  | error e =>
    rw [hanswer] at h
    cases h
  | ok answer =>
    rw [hanswer] at h
    exact ⟨answer, rfl, Option.some.inj h⟩

/-- `1/x` at 2, asked of a service without a configuration. -/
theorem handle_finite_evaluate :
    ∃ answer data, handle ⟨defaultBodyLimit, false, [], [], []⟩ "1"
      ⟨"POST", "/api/function_grapher/evaluate", "application/json",
        some "\x7b\"expression\": \"1/x\", \"x\": 2\x7d"⟩ = .ok answer ∧ answer.status = 200 ∧
      answer.document = some (Reply.envelope (some "1") true "data" data) ∧ data.Finite := by
  have hanswer : (handle ⟨defaultBodyLimit, false, [], [], []⟩ "1"
      ⟨"POST", "/api/function_grapher/evaluate", "application/json",
        some "\x7b\"expression\": \"1/x\", \"x\": 2\x7d"⟩).toOption.map Reply.status =
      some 200 := by
    decide +kernel
  have hasked : askedFor? ⟨"POST", "/api/function_grapher/evaluate", "application/json",
      some "\x7b\"expression\": \"1/x\", \"x\": 2\x7d"⟩ = some 2 := by
    decide +kernel
  have hpath : Route.ofPath? "/api/function_grapher/evaluate" = some .evaluate := by decide
  obtain ⟨answer, hanswer, hstatus⟩ := exists_answer hanswer
  obtain ⟨data, hdocument, hfinite⟩ :=
    handle_finite rfl hpath rfl rfl hanswer hstatus
  refine ⟨answer, data, hanswer, hstatus, hdocument, hfinite.mpr ?_⟩
  rintro - x hx
  rw [hasked, Option.mem_some_iff] at hx
  subst hx
  decide

/-- An evaluation at `1e999` succeeds, and the infinity that this is read as stands in its data. -/
theorem evaluate_infinite :
    settings ⟨defaultBodyLimit, false, [], [], []⟩ = .ok Settings.default ∧
    ∃ answer data, handle ⟨defaultBodyLimit, false, [], [], []⟩ "1"
      ⟨"POST", "/api/function_grapher/evaluate", "application/json",
        some "\x7b\"expression\": \"1\", \"x\": 1e999\x7d"⟩ = .ok answer ∧ answer.status = 200 ∧
      answer.document = some (Reply.envelope (some "1") true "data" data) ∧ ¬ data.Finite := by
  have hanswer : (handle ⟨defaultBodyLimit, false, [], [], []⟩ "1"
      ⟨"POST", "/api/function_grapher/evaluate", "application/json",
        some "\x7b\"expression\": \"1\", \"x\": 1e999\x7d"⟩).toOption.map Reply.status =
      some 200 := by
    decide +kernel
  have hasked : askedFor? ⟨"POST", "/api/function_grapher/evaluate", "application/json",
      some "\x7b\"expression\": \"1\", \"x\": 1e999\x7d"⟩ = some Decimal.infinity := by
    decide +kernel
  have hpath : Route.ofPath? "/api/function_grapher/evaluate" = some .evaluate := by decide
  obtain ⟨answer, hanswer, hstatus⟩ := exists_answer hanswer
  obtain ⟨data, hdata, hdocument⟩ :=
    handle_eq_success rfl hpath rfl rfl hanswer hstatus
  refine ⟨rfl, answer, data, hanswer, hstatus, hdocument, ?_⟩
  intro hfinite
  have hx := (answer_finite rfl rfl hdata).mp hfinite rfl Decimal.infinity hasked
  exact absurd hx (by decide)

end Routes
end Application
end CurveSketch
