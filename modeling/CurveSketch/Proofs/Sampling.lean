import CurveSketch.Proofs.Windows

/-!
# CurveSketch.Proofs.Sampling

What a sampled program shows. On canvases with sizes below `2^53` sampling cannot fail
(`samples_eq`), whatever the program is: each column stands for itself, as a point or as a gap
(`shows_column`), and a column that fails leaves every other as it is (`sampleAt_isolates`).
-/

namespace CurveSketch

/-- What an entry says of the column `i` at the abscissa `x`: it is a gap where the program has no
result or its result falls on no finite row, and else the point of the result. -/
structure Shows (p : Program) (w : Window) (height : Float) (i : Nat) (x : Float)
    (entry : Sample) : Prop where
  gap_iff : entry = none ↔
    (∃ fault, p.evaluate x = .error fault) ∨
      ∃ y, p.evaluate x = .ok y ∧ (w.pixelY y height).isFinite = false
  point : ∀ q, entry = some q →
    ∃ y, p.evaluate x = .ok y ∧ q = ⟨Float.ofNat i, w.pixelY y height⟩ ∧ q.y.isFinite = true

theorem shows_column (p : Program) (w : Window) (height : Float) (i : Nat) (x : Float) :
    Shows p w height i x (column p w height i x) := by
  unfold column
  cases hrun : p.evaluate x with
  | error fault => exact ⟨by simp [hrun], by simp⟩
  | ok y =>
    cases hrow : (w.pixelY y height).isFinite with
    | false => exact ⟨by simp [hrun, hrow], by simp [hrow]⟩
    | true =>
      refine ⟨by simp [hrun, hrow], ?_⟩
      intro q hq
      simp only [hrow, if_true, Option.some.injEq] at hq
      subst hq
      exact ⟨y, hrun, rfl, hrow⟩

theorem column_congr {p q : Program} {x : Float} (h : q.evaluate x = p.evaluate x) (w : Window)
    (height : Float) (i : Nat) : column q w height i x = column p w height i x := by
  unfold column
  rw [h]

variable {width height : Nat}

theorem isCountable_natCast (h : width < 2 ^ 53) : isCountable width = true := by
  unfold isCountable columnLimit
  rw [Bool.and_eq_true, decide_eq_true_eq, decide_eq_true_eq]
  omega

/-- The entries of a program on a canvas whose sizes are doubles, one for each column. -/
def entriesOf (p : Program) (width height : Nat) (w : Window) : List Sample :=
  (columnInputs width w.xRange).zipIdx.map fun entry =>
    column p w (Float.ofNat height) entry.2 entry.1

theorem samples_eq (hwidth : width < 2 ^ 53) (hheight : height < 2 ^ 53) (p : Program) (w : Window)
    (workers : Int) : samples p width height w workers = .ok (entriesOf p width height w) := by
  unfold samples entriesOf
  simp only [Decimal.ofInt?_natCast hwidth, Decimal.ofInt?_natCast hheight,
    isCountable_natCast hwidth, Workers.mapWith_eq_map, Bool.not_true, Bool.false_eq_true, if_false]

theorem length_entriesOf (p : Program) (width height : Nat) (w : Window) :
    (entriesOf p width height w).length = width + 1 := by
  simp [entriesOf, length_columnInputs]

theorem getElem?_entriesOf {p : Program} {w : Window} {i : Nat} {x : Float}
    (h : (columnInputs width w.xRange)[i]? = some x) :
    (entriesOf p width height w)[i]? = some (column p w (Float.ofNat height) i x) := by
  simp [entriesOf, List.getElem?_zipIdx, h]

theorem exists_columnInput (width : Nat) (r : Range) {i : Nat} (h : i ≤ width) :
    ∃ x, (columnInputs width r)[i]? = some x :=
  ⟨_, List.getElem?_eq_getElem (by rw [length_columnInputs]; omega)⟩

theorem sizeOf_natCast {name : String} {n size : Nat} :
    sizeOf name (.int n) = .ok size ↔ 0 < n ∧ size = n := by
  unfold sizeOf
  by_cases hn : 0 < n
  · simp [hn, eq_comm]
  · simp [hn]

theorem sampleAt_eq (hwidth : 0 < width) (hwidth' : width < 2 ^ 53) (hheight : 0 < height)
    (hheight' : height < 2 ^ 53) {xRange yRange : Value} {w : Window}
    (hw : Window.ofValues xRange yRange = .ok w) (p : Program) (workers : Int) :
    sampleAt p (.int width) (.int height) xRange yRange workers =
      .ok (height, entriesOf p width height w) := by
  unfold sampleAt
  rw [sizeOf_natCast.mpr ⟨hwidth, rfl⟩, sizeOf_natCast.mpr ⟨hheight, rfl⟩, windowOf_eq_ok.mpr hw]
  simp only [samples_eq hwidth' hheight']

/-- Sampling shows every column of the canvas by itself. No failure of a column escapes, nor does a
division by zero in the pixel transform; the entries do not depend on the workers; and programs
with the same outcome at a column's abscissa have the same entry there. -/
theorem sampleAt_isolates (p : Program) {xRange yRange : Value} {w : Window}
    (hw : Window.ofValues xRange yRange = .ok w) (hwidth : 0 < width) (hwidth' : width < 2 ^ 53)
    (hheight : 0 < height) (hheight' : height < 2 ^ 53) :
    (w.yRange.high - w.yRange.low == 0) = false ∧
    ∃ entries : List Sample,
      (∀ workers, sampleAt p (.int width) (.int height) xRange yRange workers =
        .ok (height, entries)) ∧
      entries.length = width + 1 ∧
      (∀ i ≤ width, ∃ x entry, (columnInputs width w.xRange)[i]? = some x ∧
        entries[i]? = some entry ∧ Shows p w (Float.ofNat height) i x entry) ∧
      ∀ (q : Program) (others : List Sample) (workers : Int),
        sampleAt q (.int width) (.int height) xRange yRange workers = .ok (height, others) →
        ∀ (i : Nat) (x : Float), (columnInputs width w.xRange)[i]? = some x →
          q.evaluate x = p.evaluate x → others[i]? = entries[i]? := by
  have hsample := sampleAt_eq hwidth hwidth' hheight hheight' hw
  refine ⟨(Window.valid_of_ofValues hw).2.extent_ne_zero, entriesOf p width height w,
    hsample p, length_entriesOf p width height w, ?_, ?_⟩
  · intro i hi
    obtain ⟨x, hx⟩ := exists_columnInput width w.xRange hi
    exact ⟨x, _, hx, getElem?_entriesOf hx, shows_column p w _ i x⟩
  · intro q others workers hothers i x hx hsame
    rw [hsample q workers] at hothers
    cases hothers
    rw [getElem?_entriesOf hx, getElem?_entriesOf hx, column_congr hsame]

/-- `1/x` from -1 to 1 in three columns: the one in the middle is a gap, the next one a point. -/
theorem sampleAt_isolates_pole :
    Window.ofValues (.list [.int (-1), .int 1]) (.list [.int (-2), .int 2]) =
      .ok ⟨⟨-1, 1⟩, ⟨-2, 2⟩⟩ ∧
    ∃ entries : List Sample,
      (∀ workers, sampleAt ⟨[.const 1, .var, .apply (.binary .div)], "1/x"⟩ (.int 2) (.int 4)
        (.list [.int (-1), .int 1]) (.list [.int (-2), .int 2]) workers = .ok (4, entries)) ∧
      entries.length = 3 ∧ entries[1]? = some none ∧ entries[2]? = some (some ⟨2, 1⟩) := by
  have hw : Window.ofValues (.list [.int (-1), .int 1]) (.list [.int (-2), .int 2]) =
      .ok ⟨⟨-1, 1⟩, ⟨-2, 2⟩⟩ := rfl
  refine ⟨hw, ?_⟩
  obtain ⟨-, entries, hsample, hlength, hshows, -⟩ :=
    @sampleAt_isolates 2 4
      ⟨[.const 1, .var, .apply (.binary .div)], "1/x"⟩ _ _ _ hw (by decide) (by decide)
      (by decide) (by decide)
  have hmiddle : (columnInputs 2 ⟨-1, 1⟩)[1]? = some 0 := rfl
  have hlast : (columnInputs 2 ⟨-1, 1⟩)[2]? = some 1 := rfl
  refine ⟨entries, hsample, hlength, ?_, ?_⟩
  · obtain ⟨x, entry, hx, hentry, hshow⟩ := hshows 1 (by decide)
    rw [hmiddle] at hx
    cases hx
    rw [hentry, hshow.gap_iff.mpr (.inl ⟨_, rfl⟩)]
  · obtain ⟨x, entry, hx, hentry, hshow⟩ := hshows 2 (by decide)
    rw [hlast] at hx
    cases hx
    have hrun : Program.evaluate ⟨[.const 1, .var, .apply (.binary .div)], "1/x"⟩ 1 = .ok 1 := rfl
    have hrow : Window.pixelY ⟨⟨-1, 1⟩, ⟨-2, 2⟩⟩ 1 (Float.ofNat 4) = 1 := by
      decide +kernel
    have hfinite : (1 : Float).isFinite = true := rfl
    cases entry with
    | none =>
      have hgap := hshow.gap_iff.mp rfl
      simp [hrun, hrow, hfinite] at hgap
    | some q =>
      obtain ⟨y, hy, rfl, -⟩ := hshow.point q rfl
      rw [hrun] at hy
      cases hy
      rw [hentry, hrow]
      rfl

end CurveSketch
