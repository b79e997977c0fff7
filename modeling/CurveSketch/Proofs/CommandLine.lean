import CurveSketch.CommandLine.Commands
import CurveSketch.Proofs.Finiteness

/-!
# CurveSketch.Proofs.CommandLine

How the program can end. Arguments that are understood name one command, its lex mode and its own
arguments (`Invokes`); a command then answers with an object or is refused with a message. There is
one more end, and only a curve comes to it: the sizes of its canvas are whole numbers of any length,
and one that no double is near stops the program (`run_ends`, `run_widest`).
-/

namespace CurveSketch

namespace Decimal

/-! ### Digits as an integer -/

theorem digitValue?_of_isDigit {c : Char} (h : c.isDigit = true) :
    Text.digitValue? c = some (Scan.digit c) := by
  have hrange := (Scan.isDigit_iff c).mp h
  have hfound : (Text.decimalZeros.find? fun start => start ≤ c.toNat && c.toNat < start + 10) =
      some 0x30 := by
    rw [Text.decimalZeros, List.find?_cons_of_pos]
    simp only [Bool.and_eq_true, decide_eq_true_eq]
    omega
  rw [Text.digitValue?, hfound]
  rfl

theorem digitRun_digits (inside : Bool) {cs : List Char} (h : Scan.AllDigits cs) :
    digitRun inside cs = (cs.map Scan.digit, []) := by
  induction cs generalizing inside with
  | nil => rfl
  | cons c rest ih =>
    have hc := h c (by simp)
    have hrest := ih true fun d hd => h d (by simp [hd])
    unfold digitRun
    split
    · rename_i heq
      cases heq
    · rename_i heq
      cases heq
      cases hc
    · rename_i heq
      cases heq
      simp only [digitValue?_of_isDigit hc, hrest, List.map_cons]

theorem trim_digits {cs : List Char} (h : Scan.AllDigits cs) :
    Text.trim Text.isWhiteSpace cs = cs := by
  have hdrop {ds : List Char} (hds : Scan.AllDigits ds) : ds.dropWhile Text.isWhiteSpace = ds := by
    cases ds with
    | nil => rfl
    | cons d ds =>
      have hrange := (Scan.isDigit_iff d).mp (hds d (by simp))
      rw [List.dropWhile_cons_of_neg]
      intro hwhite
      have := Scan.isBlank_range (Text.isBlank_of_isWhiteSpace hwhite)
      omega
  rw [Text.trim, hdrop h, hdrop (fun c hc => h c (List.mem_reverse.mp hc)), List.reverse_reverse]

theorem takeSign_digits {cs : List Char} (h : Scan.AllDigits cs) : takeSign cs = (false, cs) := by
  unfold takeSign
  split
  · exact absurd (h '-' (by simp)) (by decide)
  · exact absurd (h '+' (by simp)) (by decide)
  · rfl

theorem readInt?_digits {cs : List Char} (h : Scan.AllDigits cs) (hsome : cs ≠ [])
    (hlength : cs.length ≤ integerDigitLimit) :
    readInt? (String.ofList cs) = some (Int.ofNat (ofDigits (cs.map Scan.digit))) := by
  obtain ⟨c, rest, rfl⟩ := List.exists_cons_of_ne_nil hsome
  have hlimit : ¬ integerDigitLimit < ((c :: rest).map Scan.digit).length := by
    rw [List.length_map]
    omega
  simp only [readInt?, String.toList_ofList, trim_digits h, takeSign_digits h,
    digitRun_digits false h]
  rw [List.map_cons] at hlimit ⊢
  simp only [hlimit, if_false, Bool.false_eq_true]
  rfl

end Decimal

/-! ### Curves on large canvases -/

/-- The canvas is too large for the program's curve: no double is near the width, or the height is
such a number and there is a column with a value that a row has to be found for. -/
def Program.Exceeds (p : Program) (w : Window) (width height : Int) : Prop :=
  Decimal.overflow ≤ (width : ℚ) ∨
    isCountable width = true ∧ Decimal.overflow ≤ (height : ℚ) ∧
      ∃ x ∈ columnInputs width.natAbs w.xRange, ∃ y, p.evaluate x = .ok y

theorem any_isOk_iff {p : Program} {xs : List Float} :
    (xs.zipIdx.any fun entry => (p.evaluate entry.1).isOk) = true ↔
      ∃ x ∈ xs, ∃ y, p.evaluate x = .ok y := by
  have hany : (xs.zipIdx.any fun entry => (p.evaluate entry.1).isOk) =
      xs.any fun x => (p.evaluate x).isOk := by
    conv_rhs => rw [← List.zipIdx_map_fst 0 xs, List.any_map]
    rfl
  have hok (x : Float) : (p.evaluate x).isOk = true ↔ ∃ y, p.evaluate x = .ok y := by
    cases p.evaluate x with
    | ok y => simp [Except.isOk, Except.toBool]
    | error fault => simp [Except.isOk, Except.toBool]
  rw [hany, List.any_eq_true]
  simp only [hok]

theorem samples_overflow_iff {p : Program} {width height : Nat} {w : Window} {workers : Int} :
    (∃ fault, samples p width height w workers = .error fault ∧
      (CurveFault.sample fault).isOverflow = true) ↔ p.Exceeds w width height := by
  have hnone (n : Nat) : Decimal.overflow ≤ n ↔ Decimal.ofInt? n = none := by
    rw [Decimal.ofInt?_eq_none_iff, Int.cast_natCast, Nat.abs_cast]
  unfold samples Program.Exceeds
  rw [Int.cast_natCast, Int.cast_natCast, Int.natAbs_natCast, hnone, hnone]
  cases Decimal.ofInt? width with
  | none => simp [CurveFault.isOverflow]
  | some columns =>
    cases isCountable width with
    | false => simp [CurveFault.isOverflow]
    | true =>
      cases Decimal.ofInt? height with
      | some rows => simp
      | none =>
        simp only [Bool.not_true, Bool.false_eq_true, if_false, ← any_isOk_iff]
        split
        · simp [*, CurveFault.isOverflow]
        · simp [*]

namespace CurveFault

theorem message_of_isOverflow {fault : CurveFault} (h : fault.isOverflow = true) :
    fault.message = RealFault.tooLarge.message := by
  unfold isOverflow at h
  split at h
  · rfl
  · rfl
  · cases h

end CurveFault

theorem ofBounds_isOverflow {axis : Axis} {low high : Float} {fault : RangeFault}
    (h : Range.ofBounds axis low high = .error fault) :
    (CurveFault.sample (.range fault)).isOverflow = false := by
  unfold Range.ofBounds at h
  split at h
  · split at h
    · cases h
    · cases h
      rfl
  · cases h
    rfl

/-- The bounds of a window are doubles already, so one that is refused is refused for its order or
for an infinity. -/
theorem windowOf_toValue_error {w : Window} (h : ¬ w.Valid) :
    ∃ fault, windowOf w.xRange.toValue w.yRange.toValue = .error fault ∧
      (CurveFault.sample fault).isOverflow = false := by
  have hrange (axis : Axis) (r : Range) : Range.ofValue axis r.toValue =
      Range.ofBounds axis r.low r.high := rfl
  have helements (r : Range) : r.toValue.elements? = some [.real r.low, .real r.high] := rfl
  unfold windowOf Window.ofValues
  simp only [helements, hrange]
  cases hx : Range.ofBounds .x w.xRange.low w.xRange.high with
  | error fault => exact ⟨_, rfl, ofBounds_isOverflow hx⟩
  | ok xRange =>
    cases hy : Range.ofBounds .y w.yRange.low w.yRange.high with
    | error fault => exact ⟨_, rfl, ofBounds_isOverflow hy⟩
    | ok yRange =>
      obtain ⟨hxRange, rfl⟩ := Range.ofBounds_eq_ok.mp hx
      obtain ⟨hyRange, rfl⟩ := Range.ofBounds_eq_ok.mp hy
      exact absurd ⟨hxRange, hyRange⟩ h

theorem Curve.ofValues_overflow_iff {mode : LexMode} {limit : Int} {text : String}
    {width height : Int} {w : Window} {workers : Int} :
    (∃ fault, ofValues mode.name limit (.text text) (.int width) (.int height) w.xRange.toValue
        w.yRange.toValue workers = .error fault ∧ fault.isOverflow = true) ↔
      ∃ p, Program.compile mode limit text = .ok p ∧ w.Valid ∧ 0 < width ∧ 0 < height ∧
        p.Exceeds w width height := by
  have hcompile : compileAt mode.name limit (.text text) = Program.compile mode limit text := by
    simp only [compileAt, textOf, LexMode.ofName, LexMode.ofName?_name]
  unfold ofValues
  rw [hcompile]
  cases Program.compile mode limit text with
  | error e => simp [CurveFault.isOverflow]
  | ok p =>
    by_cases hw : w.Valid
    · rw [windowOf_toValue hw]
      by_cases hwidth : 0 < width
      · by_cases hheight : 0 < height
        · have hcurve : (∃ fault, samples p width.natAbs height.natAbs w workers = .error fault ∧
              (CurveFault.sample fault).isOverflow = true) ↔
                p.Exceeds w width.natAbs height.natAbs := samples_overflow_iff
          rw [Int.natAbs_of_nonneg hwidth.le, Int.natAbs_of_nonneg hheight.le] at hcurve
          simp only [sizeOf, hwidth, hheight, if_true, ofProgram]
          cases hsamples : samples p width.natAbs height.natAbs w workers with
          | ok entries => simp [← hcurve, hsamples]
          | error fault => simp [← hcurve, hsamples, hw]
        · simp [sizeOf, hwidth, hheight, CurveFault.isOverflow]
      · simp [sizeOf, hwidth, CurveFault.isOverflow]
    · obtain ⟨fault, hfault, hnone⟩ := windowOf_toValue_error hw
      simp [hfault, hnone, hw]

theorem Curve.valid_of_ofValues {modeName : String} {limit : Int}
    {text width height xRange yRange : Value} {workers : Int} {c : Curve}
    (h : ofValues modeName limit text width height xRange yRange workers = .ok c) :
    ∃ p columns rows w, w.Valid ∧ ofProgram p columns rows w workers = .ok c := by
  unfold ofValues at h
  split at h
  · cases h
  · split at h
    · cases h
    · rename_i w hw
      split at h
      · cases h
      · split at h
        · cases h
        · split at h
          · rename_i hcurve
            cases h
            exact ⟨_, _, _, w, Window.valid_of_ofValues (windowOf_eq_ok.mp hw), hcurve⟩
          · cases h

namespace CommandLine

/-- An object is printed, help is shown, or the arguments or the command are refused. -/
def Result.Documented : Result → Prop
  | .document v => ∃ fields, v = .object fields
  | .help => True
  | .misused _ => True
  | .failed _ => True
  | .overflow _ => False

/-- The arguments are understood as that command in that lex mode, with arguments of its own. -/
def Invokes (arguments : List String) (c : Command) (mode : LexMode) (q : Parsed) : Prop :=
  ∃ p name rest, usage.parse arguments = .ok p ∧ p.operands = name :: rest ∧
    Command.ofName? name = some c ∧ c.usage.parse rest = .ok q ∧ p.extras ++ q.extras = [] ∧
    mode = p.modeOr modeOption .strict

theorem Invokes.run_eq {arguments : List String} {c : Command} {mode : LexMode} {q : Parsed}
    (h : Invokes arguments c mode q) : run arguments = c.perform mode q := by
  obtain ⟨p, name, rest, hparse, hoperands, hname, hrest, hextras, rfl⟩ := h
  simp only [run, hparse, hoperands, runCommand, hname, hrest, hextras]

theorem Invokes.unique {arguments : List String} {c c' : Command} {mode mode' : LexMode}
    {q q' : Parsed} (h : Invokes arguments c mode q) (h' : Invokes arguments c' mode' q') :
    c' = c ∧ mode' = mode ∧ q' = q := by
  obtain ⟨p, name, rest, hparse, hoperands, hname, hrest, -, rfl⟩ := h
  obtain ⟨p', name', rest', hparse', hoperands', hname', hrest', -, rfl⟩ := h'
  rw [hparse] at hparse'
  cases hparse'
  rw [hoperands] at hoperands'
  cases hoperands'
  rw [hname] at hname'
  cases hname'
  rw [hrest] at hrest'
  cases hrest'
  exact ⟨rfl, rfl, rfl⟩

theorem stopped_cases (stop : Stop) : stopped stop = .help ∨ ∃ m, stopped stop = .misused m := by
  cases stop with
  | help => exact .inl rfl
  | usage message => exact .inr ⟨message, rfl⟩

theorem run_cases (arguments : List String) :
    (∃ c mode q, Invokes arguments c mode q) ∨ run arguments = .help ∨
      ∃ m, run arguments = .misused m := by
  cases hparse : usage.parse arguments with
  | error stop =>
    rw [run, hparse]
    exact .inr (stopped_cases stop)
  | ok p =>
    cases hoperands : p.operands with
    | nil =>
      simp only [run, hparse, hoperands]
      exact .inr (.inr ⟨_, rfl⟩)
    | cons name rest =>
      have hrun : run arguments = runCommand p name rest := by
        simp only [run, hparse, hoperands]
      rw [hrun]
      cases hname : Command.ofName? name with
      | none =>
        simp only [runCommand, hname]
        exact .inr (.inr ⟨_, rfl⟩)
      | some c =>
        cases hrest : c.usage.parse rest with
        | error stop =>
          simp only [runCommand, hname, hrest]
          exact .inr (stopped_cases stop)
        | ok q =>
          cases hextras : p.extras ++ q.extras with
          | nil =>
            exact .inl ⟨c, _, q, p, name, rest, hparse, hoperands, hname, hrest, hextras, rfl⟩
          | cons extra extras =>
            simp only [runCommand, hname, hrest, hextras]
            exact .inr (.inr ⟨_, rfl⟩)

/-! ### The commands -/

def Parsed.window (q : Parsed) : Window :=
  ⟨q.rangeOr xRangeOption .default, q.rangeOr yRangeOption .default⟩

/-- Everything about the curve is in order but for a canvas that is too large for it. -/
def TooLarge (mode : LexMode) (q : Parsed) : Prop :=
  ∃ p, Program.compile mode expressionLimit q.expression = .ok p ∧ q.window.Valid ∧
    0 < q.wholeOr widthOption 80 ∧ 0 < q.wholeOr heightOption 40 ∧
    p.Exceeds q.window (q.wholeOr widthOption 80) (q.wholeOr heightOption 40)

def curveOf (mode : LexMode) (q : Parsed) : Except CurveFault Curve :=
  Curve.ofValues mode.name expressionLimit (.text q.expression)
    (.int (q.wholeOr widthOption 80)) (.int (q.wholeOr heightOption 40))
    q.window.xRange.toValue q.window.yRange.toValue (q.wholeOr workersOption 1)

theorem curveOf_overflow_iff {mode : LexMode} {q : Parsed} :
    (∃ fault, curveOf mode q = .error fault ∧ fault.isOverflow = true) ↔ TooLarge mode q :=
  Curve.ofValues_overflow_iff

/-- What a command comes to: the object that it is asked for, or the reason why there is none. -/
inductive Performs (mode : LexMode) (q : Parsed) : Command → Result → Prop where
  | compiled {summary : Summary} (h : Summary.ofText mode expressionLimit q.expression =
      .ok summary) : Performs mode q .compile (.document summary.toValue)
  | evaluated {evaluation : Evaluation} (h : Evaluation.ofText mode expressionLimit q.expression
      (q.realOr xOption 0) = .ok evaluation) :
    Performs mode q .evaluate (.document evaluation.toValue)
  | sampled {curve : Curve} (h : curveOf mode q = .ok curve) : Performs mode q .sample
      (.document (if q.has pointsOption then curve.toValue else .object curve.outline))
  | unsampled {fault : CurveFault} (h : curveOf mode q = .error fault) :
    Performs mode q .sample (failure fault.isOverflow fault.message)
  | refused {c : Command} (h : c ≠ .sample) (message : String) :
    Performs mode q c (.failed message)

theorem performs (c : Command) (mode : LexMode) (q : Parsed) :
    Performs mode q c (c.perform mode q) := by
  cases c with
  | compile =>
    simp only [Command.perform]
    split
    · rename_i h
      exact .compiled h
    · exact .refused (by decide) _
  | evaluate =>
    simp only [Command.perform]
    split
    · rename_i h
      exact .evaluated h
    · exact .refused (by decide) _
  | sample =>
    simp only [Command.perform]
    split
    · rename_i h
      exact .sampled h
    · rename_i h
      exact .unsampled h

section Performs

variable {mode : LexMode} {q : Parsed} {c : Command} {r : Result} {v : Value}

theorem Performs.documented (h : Performs mode q c r) (hsmall : c = .sample → ¬ TooLarge mode q) :
    r.Documented := by
  cases h with
  | compiled h => exact ⟨_, rfl⟩
  | evaluated h => exact ⟨_, rfl⟩
  | sampled h => split <;> exact ⟨_, rfl⟩
  | unsampled h =>
    rename_i fault
    have hfault : fault.isOverflow = false := by
      rw [Bool.eq_false_iff]
      intro hoverflow
      exact hsmall rfl (curveOf_overflow_iff.mp ⟨fault, h, hoverflow⟩)
    rw [failure, hfault]
    trivial
  | refused => trivial

theorem Performs.overflow (h : Performs mode q .sample r) (hlarge : TooLarge mode q) :
    r = .overflow RealFault.tooLarge.message := by
  obtain ⟨fault, hfault, hoverflow⟩ := curveOf_overflow_iff.mpr hlarge
  cases h with
  | sampled h =>
    rw [hfault] at h
    cases h
  | unsampled h =>
    rw [hfault] at h
    cases h
    rw [failure, hoverflow, if_pos rfl, CurveFault.message_of_isOverflow hoverflow]
  | refused h => exact absurd rfl h

theorem Performs.finite (h : Performs mode q c (.document v)) :
    v.Finite ↔ (c = .evaluate → (q.realOr xOption 0).isFinite = true) := by
  generalize hr : Result.document v = r at h
  cases h with
  | compiled h =>
    cases hr
    simp [Summary.finite_toValue h (by decide)]
  | evaluated h =>
    cases hr
    simp [Evaluation.finite_toValue h]
  | sampled h =>
    cases hr
    obtain ⟨p, columns, rows, w, hw, hcurve⟩ := Curve.valid_of_ofValues h
    have hfinite := Curve.finite_toValue hw hcurve
    have houtline := hfinite
    rw [Curve.toValue, Value.finite_object, List.forall_mem_cons] at houtline
    split
    · simp only [hfinite, reduceCtorEq, false_imp_iff]
    · simp only [(Value.finite_object _).mpr houtline.2, reduceCtorEq, false_imp_iff]
  | unsampled h =>
    unfold failure at hr
    split at hr <;> cases hr
  | refused => cases hr

end Performs

/-! ### The whole program -/

theorem Invokes.performs {arguments : List String} {c : Command} {mode : LexMode} {q : Parsed}
    (h : Invokes arguments c mode q) : Performs mode q c (run arguments) := by
  rw [h.run_eq]
  exact CommandLine.performs c mode q

theorem documented_or_tooLarge (arguments : List String) :
    (run arguments).Documented ∨ ∃ mode q, Invokes arguments .sample mode q ∧ TooLarge mode q := by
  rcases run_cases arguments with ⟨c, mode, q, hinvokes⟩ | hhelp | ⟨message, hmisused⟩
  · by_cases hlarge : c = .sample ∧ TooLarge mode q
    · obtain ⟨rfl, hlarge⟩ := hlarge
      exact .inr ⟨mode, q, hinvokes, hlarge⟩
    · exact .inl (hinvokes.performs.documented fun hc htoo => hlarge ⟨hc, htoo⟩)
  · rw [hhelp]
    exact .inl trivial
  · rw [hmisused]
    exact .inl trivial

theorem finite_iff_of_run {arguments : List String} {v : Value}
    (h : run arguments = .document v) : v.Finite ↔
      ∀ mode q, Invokes arguments .evaluate mode q → (q.realOr xOption 0).isFinite = true := by
  rcases run_cases arguments with ⟨c, mode, q, hinvokes⟩ | hhelp | ⟨message, hmisused⟩
  · have hperforms := hinvokes.performs
    rw [h] at hperforms
    rw [hperforms.finite]
    constructor
    · intro hx mode' q' h'
      obtain ⟨hc, -, rfl⟩ := hinvokes.unique h'
      exact hx hc.symm
    · intro hall hc
      subst hc
      exact hall mode q hinvokes
  · rw [hhelp] at h
    cases h
  · rw [hmisused] at h
    cases h

/-- The program ends in a documented way, unless a curve is asked for on a canvas that is too large
for it: then it is stopped. What it prints is an object, and the numbers in it are finite unless an
evaluation was asked for at an `x` that is not. -/
theorem run_ends (arguments : List String) :
    ((run arguments).Documented ∨ run arguments = .overflow RealFault.tooLarge.message) ∧
    (¬ (run arguments).Documented ↔
      ∃ mode q, Invokes arguments .sample mode q ∧ TooLarge mode q) ∧
    ∀ v, run arguments = .document v → (v.Finite ↔
      ∀ mode q, Invokes arguments .evaluate mode q → (q.realOr xOption 0).isFinite = true) := by
  refine ⟨?_, ⟨?_, ?_⟩, ?_⟩
  · rcases documented_or_tooLarge arguments with hdocumented | ⟨mode, q, hinvokes, hlarge⟩
    · exact .inl hdocumented
    · exact .inr (hinvokes.performs.overflow hlarge)
  · intro hnot
    exact (documented_or_tooLarge arguments).resolve_left hnot
  · rintro ⟨mode, q, hinvokes, hlarge⟩ hdocumented
    rw [hinvokes.performs.overflow hlarge] at hdocumented
    exact hdocumented
  · intro v hv
    exact finite_iff_of_run hv

/-! ### A width beyond the doubles -/

section Width

variable {width : String}

theorem parse_width (hseparator : (width == "--") = false)
    (hrole : ∀ options, roleOf options width = .ok .operand) :
    usage.parse ["sample", "1", "--width", width] =
      .ok ⟨[], ["sample", "1", "--width", width], []⟩ := by
  have hwords : words usage.options ["sample", "1", "--width", width] =
      .ok [⟨"sample", .operand⟩, ⟨"1", .operand⟩, ⟨"--width", .unknown⟩, ⟨width, .operand⟩] := by
    simp only [words, hrole, hseparator]
    rfl
  simp only [Usage.parse, hwords]
  rfl

theorem parse_sample_width (hseparator : (width == "--") = false)
    (hrole : ∀ options, roleOf options width = .ok .operand) {n : Int}
    (hread : Decimal.readInt? width = some n) :
    Command.sample.usage.parse ["1", "--width", width] =
      .ok ⟨[("--width", .whole n)], ["1"], []⟩ := by
  have hwords : words Command.sample.usage.options ["1", "--width", width] =
      .ok [⟨"1", .operand⟩, ⟨"--width", .known widthOption "--width" none⟩,
        ⟨width, .operand⟩] := by
    simp only [words, hrole, hseparator]
    rfl
  have hvalue : widthOption.read width = .ok (.whole n) := by
    simp only [OptionSpec.read, widthOption, hread]
  have hsteps : Progress.steps Command.sample.usage .start [⟨"1", .operand⟩,
      ⟨"--width", .known widthOption "--width" none⟩, ⟨width, .operand⟩] =
        .ok ⟨[("--width", .whole n)], ["1"], [], .anything⟩ := by
    have hoperand : Progress.step Command.sample.usage .start ⟨"1", .operand⟩ =
        .ok ⟨[], ["1"], [], .afterOperand⟩ := rfl
    have hoption : Progress.step Command.sample.usage ⟨[], ["1"], [], .afterOperand⟩
        ⟨"--width", .known widthOption "--width" none⟩ =
          .ok ⟨[], ["1"], [], .valueOf widthOption⟩ := rfl
    have hset : Progress.step Command.sample.usage ⟨[], ["1"], [], .valueOf widthOption⟩
        ⟨width, .operand⟩ = .ok ⟨[("--width", .whole n)], ["1"], [], .anything⟩ := by
      show Progress.setFrom _ widthOption width = _
      simp only [Progress.setFrom, hvalue]
      rfl
    simp only [Progress.steps, hoperand, hoption, hset]
  simp only [Usage.parse, hwords, hsteps]
  rfl

end Width

/-- A width that is written in digits and beyond the doubles stops the program. -/
theorem run_wide {digits : List Char} (hdigits : Scan.AllDigits digits) (hsome : digits ≠ [])
    (hlength : digits.length ≤ Decimal.integerDigitLimit)
    (hlarge : Decimal.overflow ≤ (Decimal.ofDigits (digits.map Scan.digit) : ℚ)) :
    run ["sample", "1", "--width", String.ofList digits] =
      .overflow RealFault.tooLarge.message := by
  have hread := Decimal.readInt?_digits hdigits hsome hlength
  generalize Decimal.ofDigits (digits.map Scan.digit) = n at hread hlarge
  have hseparator : (String.ofList digits == "--") = false := by
    rw [beq_eq_false_iff_ne]
    intro heq
    have hlist := congrArg String.toList heq
    rw [String.toList_ofList] at hlist
    exact absurd (hdigits '-' (by rw [hlist]; decide)) (by decide)
  have hrole (options : List OptionSpec) :
      roleOf options (String.ofList digits) = .ok .operand := by
    unfold roleOf
    rw [String.toList_ofList]
    split
    · exact absurd (hdigits '-' (by simp)) (by decide)
    · rfl
  have hinvokes : Invokes ["sample", "1", "--width", String.ofList digits] .sample .strict
      ⟨[("--width", .whole n)], ["1"], []⟩ :=
    ⟨_, _, _, parse_width hseparator hrole, rfl, by decide,
      parse_sample_width hseparator hrole hread, rfl, rfl⟩
  have hpositive : (0 : ℚ) < n := lt_of_lt_of_le (by unfold Decimal.overflow; positivity) hlarge
  have hcompile : Program.compile .strict expressionLimit "1" = .ok ⟨[.const 1], "1"⟩ := rfl
  have hwindow : Window.default.Valid := by
    refine ⟨⟨rfl, rfl, ?_⟩, ⟨rfl, rfl, ?_⟩⟩ <;> decide
  have hwidth : (0 : Int) < n := by exact_mod_cast hpositive
  have hheight : (0 : Int) < 40 := by decide
  exact hinvokes.performs.overflow ⟨_, hcompile, hwindow, hwidth, hheight, .inl hlarge⟩

/-- A width of `10 ^ 309` columns stops the program. -/
theorem run_widest : ¬ (run ["sample", "1", "--width",
    String.ofList ('1' :: List.replicate 309 '0')]).Documented := by
  have hdigits : Scan.AllDigits ('1' :: List.replicate 309 '0') := by
    intro c hc
    rcases List.mem_cons.mp hc with rfl | hc
    · rfl
    · exact Scan.allDigits_zeros 309 c hc
  have hlength : ('1' :: List.replicate 309 '0').length ≤ Decimal.integerDigitLimit := by
    rw [List.length_cons, List.length_replicate]
    decide
  have hvalue : Decimal.ofDigits (('1' :: List.replicate 309 '0').map Scan.digit) = 10 ^ 309 := by
    have hone : Scan.decimalValue ['1'] = 1 := rfl
    rw [← List.singleton_append, Scan.ofDigits_append, Scan.decimalValue_zeros, hone,
      List.length_replicate, Nat.one_mul, Nat.add_zero]
  rw [run_wide hdigits (List.cons_ne_nil _ _) hlength]
  · exact id
  · rw [hvalue, Nat.cast_pow]
    exact Decimal.overflow_le_pow_ten

end CommandLine
end CurveSketch
