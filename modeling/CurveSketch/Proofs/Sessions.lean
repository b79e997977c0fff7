import CurveSketch.Proofs.Windows

/-!
# CurveSketch.Proofs.Sessions

Sessions on a window: construct, zoom, reset, in any order and with arguments of any kind. An action
that succeeds is described by `Window.Performs` (`act_eq_ok`): a zoom scales both ranges and is
refused unless both are ranges again. An action that fails changes nothing, so every window of a
session is valid, however long the session is (`session_valid`).
-/

namespace CurveSketch

theorem Range.zoom_eq_ok {axis : Axis} {r next : Range} {factor : Float} :
    r.zoom axis factor = .ok next ↔
      next.Valid ∧ next = ⟨(r.scale factor).1, (r.scale factor).2⟩ :=
  ofBounds_eq_ok

namespace Window

/-- `next` is the window with both ranges scaled about their centres, and is a window again. -/
structure Scales (w : Window) (factor : Float) (next : Window) : Prop where
  finite : factor.isFinite = true
  positive : 0 < factor
  x : next.xRange = ⟨(w.xRange.scale factor).1, (w.xRange.scale factor).2⟩
  y : next.yRange = ⟨(w.yRange.scale factor).1, (w.yRange.scale factor).2⟩
  valid : next.Valid

/-- The actions that succeed on `w`, and the window that each of them leads to. -/
inductive Performs (w : Window) : Action → Window → Prop where
  | construct {x y : Value} {next : Window} (readX : Range.ofValue .x x = .ok next.xRange)
      (readY : Range.ofValue .y y = .ok next.yRange) : Performs w (.construct x y) next
  | zoom {v : Value} {factor : Float} {next : Window} (read : v.toReal = .ok factor)
      (scales : w.Scales factor next) : Performs w (.zoom v) next
  | zoomIn {next : Window} (scales : w.Scales zoomInFactor next) : Performs w .zoomIn next
  | zoomOut {next : Window} (scales : w.Scales zoomOutFactor next) : Performs w .zoomOut next
  | reset : Performs w .reset default

theorem zoom_eq_ok {w next : Window} {factor : Float} :
    w.zoom factor = .ok next ↔ w.Scales factor next := by
  unfold zoom
  constructor
  · intro h
    split at h
    · rename_i hfactor
      rw [Bool.and_eq_true, decide_eq_true_eq] at hfactor
      split at h
      · cases h
      · rename_i xRange hx
        split at h
        · cases h
        · rename_i yRange hy
          cases h
          obtain ⟨hxvalid, hx⟩ := Range.zoom_eq_ok.mp hx
          obtain ⟨hyvalid, hy⟩ := Range.zoom_eq_ok.mp hy
          exact ⟨hfactor.1, hfactor.2, hx, hy, hxvalid, hyvalid⟩
    · cases h
  · intro h
    have hx : w.xRange.zoom .x factor = .ok next.xRange := Range.zoom_eq_ok.mpr ⟨h.valid.1, h.x⟩
    have hy : w.yRange.zoom .y factor = .ok next.yRange := Range.zoom_eq_ok.mpr ⟨h.valid.2, h.y⟩
    simp [h.finite, h.positive, hx, hy]

theorem zoomBy_eq_ok {w next : Window} {v : Value} :
    w.zoomBy v = .ok next ↔ ∃ factor, v.toReal = .ok factor ∧ w.Scales factor next := by
  unfold zoomBy
  constructor
  · intro h
    split at h
    · cases h
    · rename_i factor hread
      exact ⟨factor, hread, zoom_eq_ok.mp h⟩
  · rintro ⟨factor, hread, hscales⟩
    rw [hread]
    exact zoom_eq_ok.mpr hscales

theorem act_eq_ok {w next : Window} {a : Action} : w.act a = .ok next ↔ w.Performs a next := by
  constructor
  · intro h
    cases a with
    | construct x y =>
      simp only [act] at h
      split at h
      · rename_i hvalues
        cases h
        obtain ⟨hx, hy⟩ := ofValues_eq_ok.mp hvalues
        exact .construct hx hy
      · cases h
    | zoom v =>
      simp only [act] at h
      split at h
      · rename_i hzoom
        cases h
        obtain ⟨factor, hread, hscales⟩ := zoomBy_eq_ok.mp hzoom
        exact .zoom hread hscales
      · cases h
    | zoomIn =>
      simp only [act] at h
      split at h
      · rename_i hzoom
        cases h
        exact .zoomIn (zoom_eq_ok.mp hzoom)
      · cases h
    | zoomOut =>
      simp only [act] at h
      split at h
      · rename_i hzoom
        cases h
        exact .zoomOut (zoom_eq_ok.mp hzoom)
      · cases h
    | reset =>
      cases h
      exact .reset
  · intro h
    cases h with
    | construct hx hy => simp [act, ofValues_eq_ok.mpr ⟨hx, hy⟩]
    | zoom hread hscales => simp [act, zoomBy_eq_ok.mpr ⟨_, hread, hscales⟩]
    | zoomIn hscales => simp [act, zoom_eq_ok.mpr hscales]
    | zoomOut hscales => simp [act, zoom_eq_ok.mpr hscales]
    | reset => rfl

theorem valid_default : default.Valid := by
  have hrange : Range.default.Valid := ⟨by decide, by decide, by decide⟩
  exact ⟨hrange, hrange⟩

theorem Performs.valid {w next : Window} {a : Action} (h : w.Performs a next) : next.Valid := by
  cases h with
  | construct hx hy => exact ⟨Range.valid_of_ofValue hx, Range.valid_of_ofValue hy⟩
  | zoom hread hscales => exact hscales.valid
  | zoomIn hscales => exact hscales.valid
  | zoomOut hscales => exact hscales.valid
  | reset => exact valid_default

theorem after_of_ok {w next : Window} {a : Action} (h : w.act a = .ok next) : w.after a = next := by
  simp [after, h]

theorem after_of_error {w : Window} {a : Action} {fault : ActionFault}
    (h : w.act a = .error fault) : w.after a = w := by
  simp [after, h]

theorem valid_after {w : Window} (hw : w.Valid) (a : Action) : (w.after a).Valid := by
  cases h : w.act a with
  | ok next =>
    rw [after_of_ok h]
    exact (act_eq_ok.mp h).valid
  | error fault =>
    rw [after_of_error h]
    exact hw

theorem session_concat (actions : List Action) (a : Action) :
    session (actions ++ [a]) = (session actions).after a := by
  simp [session]

theorem valid_session (actions : List Action) : (session actions).Valid := by
  induction actions using List.reverseRecOn with
  | nil => exact valid_default
  | append_singleton actions a ih =>
    rw [session_concat]
    exact valid_after ih a

/-- Every window of a session has finite bounds in increasing order on both axes. The next action
either succeeds and leads where `Performs` says, or fails and leaves the window as it is; a reset
always leads back to the default window. -/
theorem session_valid (actions : List Action) :
    (session actions).Valid ∧
    (∀ a next, (session actions).act a = .ok next ↔ (session actions).Performs a next) ∧
    (∀ a next, (session actions).act a = .ok next → session (actions ++ [a]) = next) ∧
    (∀ a fault, (session actions).act a = .error fault →
      session (actions ++ [a]) = session actions) ∧
    session (actions ++ [.reset]) = default := by
  refine ⟨valid_session actions, fun a next => act_eq_ok, ?_, ?_, ?_⟩
  · intro a next h
    rw [session_concat]
    exact after_of_ok h
  · intro a fault h
    rw [session_concat]
    exact after_of_error h
  · rw [session_concat]
    exact after_of_ok (act_eq_ok.mpr .reset)

end Window
end CurveSketch
