import CurveSketch.Proofs.Polyline
import CurveSketch.Proofs.Sampling
import CurveSketch.Report

/-!
# CurveSketch.Proofs.Curve

What a curve says of the columns of its canvas. The lines hold what `split` is given, told apart by
abscissas as long as every point is at its column (`AtColumns`), which sampling sees to
(`entriesOf_atColumns`). A curve of an expression accounts for every column once, and sampling its
program over the ranges it names gives its points again (`Curve.ofValues_accounted`).
-/

namespace CurveSketch
namespace Polyline

def AtColumns (entries : List Sample) : Prop :=
  ∀ i p, entries[i]? = some (some p) → p.x = Float.ofNat i

theorem filter_placedFrom {entries : List Sample} {j : Nat} {entry : Sample}
    (h : entries[j]? = some entry) (i : Nat) :
    ((placedFrom i entries).filter fun a => a.1 == i + j).map Prod.snd = entry.toList := by
  induction entries generalizing i j with
  | nil => simp at h
  | cons first rest ih =>
    cases j with
    | zero =>
      obtain rfl : first = entry := by simpa using h
      have hlater : (placedFrom (i + 1) rest).filter (fun a => a.1 == i + 0) = [] := by
        rw [List.filter_eq_nil_iff]
        intro a ha
        have := (mem_placedFrom.mp ha).1
        simp
        omega
      cases first with
      | none => rw [placedFrom, hlater, List.map_nil, Option.toList_none]
      | some p => rw [placedFrom, List.filter_cons_of_pos (by simp), hlater]; rfl
    | succ j =>
      have hrest := ih (by simpa using h) (i + 1)
      rw [show i + 1 + j = i + (j + 1) by omega] at hrest
      cases first with
      | none => exact hrest
      | some p =>
        rw [placedFrom, List.filter_cons_of_neg (by simp), hrest]

variable {entries : List Sample} {height : Number}

theorem column_lt_length {a : Nat × Point} (h : a ∈ placedFrom 0 entries) :
    a.1 < entries.length :=
  (List.getElem?_eq_some_iff.mp (mem_placedFrom_zero.mp h)).1

/-- Looked up by its abscissa, a column has in the lines what it has among the entries. -/
theorem filter_split (hat : AtColumns entries) (hlength : entries.length ≤ 2 ^ 53) {i : Nat}
    {entry : Sample} (h : entries[i]? = some entry) :
    (split height entries).flatten.filter (fun p => p.x == Float.ofNat i) = entry.toList := by
  have hi : i < entries.length := (List.getElem?_eq_some_iff.mp h).1
  have hcolumn : ∀ a ∈ placedFrom 0 entries, (a.2.x == Float.ofNat i) = (a.1 == 0 + i) := by
    intro a ha
    have hlt := column_lt_length ha
    rw [hat a.1 a.2 (mem_placedFrom_zero.mp ha),
      Decimal.ofNat_beq_ofNat (by omega) (by omega), Nat.zero_add]
  rw [flatten_split, List.filter_map, ← filter_placedFrom h 0]
  exact congrArg (List.map Prod.snd) (List.filter_congr hcolumn)

theorem ascending_split (hat : AtColumns entries) (hlength : entries.length ≤ 2 ^ 53) :
    (split height entries).flatten.Pairwise fun p q => p.x < q.x := by
  rw [flatten_split, List.pairwise_map]
  refine (placedFrom_sorted 0 entries).imp_of_mem ?_
  intro a b ha hb hab
  have hlt := column_lt_length ha
  have hlt' := column_lt_length hb
  rw [hat a.1 a.2 (mem_placedFrom_zero.mp ha), hat b.1 b.2 (mem_placedFrom_zero.mp hb)]
  exact (Decimal.ofNat_lt_ofNat (by omega) (by omega)).mpr hab

theorem consecutive_split (hat : AtColumns entries) {line : List Point}
    (h : line ∈ split height entries) :
    ∃ first, first + line.length ≤ entries.length ∧
      line.map Point.x = (List.range' first line.length).map Float.ofNat := by
  rw [split_eq] at h
  obtain ⟨placed, hplaced, rfl⟩ := List.mem_map.mp h
  obtain ⟨first, hfirst⟩ := map_fst_eq_range' (columns_consecutive hplaced)
  refine ⟨first, ?_, ?_⟩
  · have hne : 0 < placed.length :=
      List.length_pos_iff.mpr (List.ne_nil_of_mem_splitBy hplaced)
    have hlast : first + placed.length - 1 ∈ placed.map Prod.fst := by
      rw [hfirst, List.mem_range'_1]
      omega
    obtain ⟨a, ha, hcolumn⟩ := List.mem_map.mp hlast
    have hlt := (List.getElem?_eq_some_iff.mp (mem_of_mem_line hplaced ha)).1
    rw [List.length_map]
    omega
  · rw [List.length_map, ← hfirst, List.map_map, List.map_map]
    refine List.map_congr_left ?_
    intro a ha
    exact hat a.1 a.2 (mem_of_mem_line hplaced ha)

theorem length_split (height : Number) (entries : List Sample) :
    entries.countP Option.isNone + ((split height entries).map List.length).sum =
      entries.length := by
  rw [← List.length_flatten, flatten_split, map_snd_placedFrom, List.countP_eq_length_filter,
    Nat.add_comm, ← List.length_eq_reduceOption_length_add_filter_none]

end Polyline

theorem entriesOf_atColumns (p : Program) (width height : Nat) (w : Window) :
    Polyline.AtColumns (entriesOf p width height w) := by
  intro i q h
  have hi := (List.getElem?_eq_some_iff.mp h).1
  rw [length_entriesOf] at hi
  obtain ⟨x, hx⟩ := exists_columnInput width w.xRange (Nat.le_of_lt_succ hi)
  rw [getElem?_entriesOf hx, Option.some.injEq] at h
  obtain ⟨y, -, rfl, -⟩ := (shows_column p w (Float.ofNat height) i x).point q h
  rfl

namespace Curve

/-- Points and lines account for the columns of the canvas: each is a gap or one point of the lines,
and the lines go through the columns from left to right. -/
structure Accounted (c : Curve) : Prop where
  once : ∀ i ≤ c.width, ∃ entry, c.points[i]? = some entry ∧
    (∀ p, entry = some p → p.x = Float.ofNat i) ∧
    c.segments.flatten.filter (fun p => p.x == Float.ofNat i) = entry.toList
  count : c.points.length = c.width + 1
  total : c.gaps + (c.segments.map List.length).sum = c.width + 1
  ascending : c.segments.flatten.Pairwise fun p q => p.x < q.x
  consecutive : ∀ line ∈ c.segments, ∃ first, first + line.length ≤ c.width + 1 ∧
    line.map Point.x = (List.range' first line.length).map Float.ofNat

theorem ofProgram_eq {width height : Nat} (hwidth : width < 2 ^ 53) (hheight : height < 2 ^ 53)
    (p : Program) (w : Window) (workers : Int) :
    ofProgram p width height w workers =
      .ok ⟨p, width, height, w, entriesOf p width height w,
        Polyline.split (.whole height) (entriesOf p width height w)⟩ := by
  unfold ofProgram
  rw [samples_eq hwidth hheight]

theorem accounted_of_ofProgram {p : Program} {width height : Nat} {w : Window} {workers : Int}
    {c : Curve} (hwidth : width < 2 ^ 53) (hheight : height < 2 ^ 53)
    (h : ofProgram p width height w workers = .ok c) : c.Accounted := by
  rw [ofProgram_eq hwidth hheight, Except.ok.injEq] at h
  subst h
  have hat := entriesOf_atColumns p width height w
  have hlength := length_entriesOf p width height w
  refine ⟨?_, hlength, ?_, ?_, ?_⟩
  · intro i hi
    have hi' : i < (entriesOf p width height w).length := by
      rw [hlength]
      exact Nat.lt_succ_of_le hi
    refine ⟨_, List.getElem?_eq_getElem hi', ?_, ?_⟩
    · intro q hq
      exact hat i q (List.getElem?_eq_some_iff.mpr ⟨hi', hq⟩)
    · exact Polyline.filter_split hat (by omega) (List.getElem?_eq_getElem hi')
  · exact (Polyline.length_split _ _).trans hlength
  · exact Polyline.ascending_split hat (by omega)
  · intro line hline
    rw [← hlength]
    exact Polyline.consecutive_split hat hline

variable {modeName : String} {limit : Int} {text xRange yRange : Value} {width height : Nat}
  {workers : Int} {c : Curve}

theorem ofValues_eq_ok :
    ofValues modeName limit text (.int width) (.int height) xRange yRange workers = .ok c ↔
    ∃ p w, compileAt modeName limit text = .ok p ∧ Window.ofValues xRange yRange = .ok w ∧
      0 < width ∧ 0 < height ∧ ofProgram p width height w workers = .ok c := by
  unfold ofValues
  constructor
  · intro h
    split at h
    · cases h
    · rename_i p hp
      split at h
      · cases h
      · rename_i w hw
        split at h
        · cases h
        · rename_i columns hcolumns
          obtain ⟨hwidth, rfl⟩ := sizeOf_natCast.mp hcolumns
          split at h
          · cases h
          · rename_i rows hrows
            obtain ⟨hheight, rfl⟩ := sizeOf_natCast.mp hrows
            split at h
            · rename_i curve hcurve
              cases h
              exact ⟨p, w, hp, windowOf_eq_ok.mp hw, hwidth, hheight, hcurve⟩
            · cases h
  · rintro ⟨p, w, hp, hw, hwidth, hheight, hcurve⟩
    simp only [hp, windowOf_eq_ok.mpr hw, sizeOf_natCast.mpr ⟨hwidth, rfl⟩,
      sizeOf_natCast.mpr ⟨hheight, rfl⟩, hcurve]

/-- A curve accounts for each of its columns once; its window has finite ranges in increasing order,
and sampling its program over them gives its points again. -/
theorem ofValues_accounted (hwidth : width < 2 ^ 53) (hheight : height < 2 ^ 53)
    (h : ofValues modeName limit text (.int width) (.int height) xRange yRange workers = .ok c) :
    c.Accounted ∧ c.width = width ∧ c.height = height ∧ c.window.Valid ∧
    compileAt modeName limit text = .ok c.program ∧
    sampleAt c.program (.int width) (.int height) c.window.xRange.toValue c.window.yRange.toValue
      workers = .ok (height, c.points) := by
  obtain ⟨p, w, hp, hw, hpos, hpos', hcurve⟩ := ofValues_eq_ok.mp h
  have haccounted := accounted_of_ofProgram hwidth hheight hcurve
  rw [ofProgram_eq hwidth hheight, Except.ok.injEq] at hcurve
  subst hcurve
  have hvalid := Window.valid_of_ofValues hw
  exact ⟨haccounted, rfl, rfl, hvalid, hp, sampleAt_eq hpos hwidth hpos' hheight
    (windowOf_eq_ok.mp (windowOf_toValue hvalid)) p workers⟩

/-- `1/x` from -1 to 1 in three columns: a point, the pole, and a point. -/
theorem ofValues_accounted_pole : ∃ c,
    ofValues "strict" 256 (.text "1/x") (.int 2) (.int 4) (.list [.int (-1), .int 1])
      (.list [.int (-2), .int 2]) 1 = .ok c ∧
    c.Accounted ∧ c.points = [some ⟨0, 3⟩, none, some ⟨2, 1⟩] ∧
    c.segments = [[⟨0, 3⟩], [⟨2, 1⟩]] := by
  let p : Program := ⟨[.const 1, .var, .apply (.binary .div)], "1/x"⟩
  let w : Window := ⟨⟨-1, 1⟩, ⟨-2, 2⟩⟩
  have hp : compileAt "strict" 256 (.text "1/x") = .ok p := rfl
  have hw : Window.ofValues (.list [.int (-1), .int 1]) (.list [.int (-2), .int 2]) = .ok w := rfl
  have hinputs : columnInputs 2 w.xRange = [-1, 0, 1] := by decide +kernel
  have hrun : p.evaluate (-1) = .ok (-1) ∧ p.evaluate 0 = .error (.domain .divisionByZero) ∧
      p.evaluate 1 = .ok 1 := ⟨rfl, rfl, rfl⟩
  have hrow : w.pixelY (-1) (Float.ofNat 4) = 3 ∧ w.pixelY 1 (Float.ofNat 4) = 1 := by
    decide +kernel
  have hentries : entriesOf p 2 4 w = [some ⟨0, 3⟩, none, some ⟨2, 1⟩] := by
    simp only [entriesOf, hinputs, List.zipIdx, List.map, column, hrun, hrow]
    rfl
  have hcurve : ofValues "strict" 256 (.text "1/x") (.int 2) (.int 4) (.list [.int (-1), .int 1])
      (.list [.int (-2), .int 2]) 1 =
        .ok ⟨p, 2, 4, w, [some ⟨0, 3⟩, none, some ⟨2, 1⟩], [[⟨0, 3⟩], [⟨2, 1⟩]]⟩ := by
    refine (@ofValues_eq_ok _ _ _ _ _ 2 4 _ _).mpr ⟨p, w, hp, hw, by decide, by decide, ?_⟩
    rw [ofProgram_eq (by decide) (by decide), hentries]
    rfl
  obtain ⟨haccounted, -⟩ := @ofValues_accounted _ _ _ _ _ 2 4 _ _ (by decide) (by decide) hcurve
  exact ⟨_, hcurve, haccounted, rfl, rfl⟩

end Curve
end CurveSketch
