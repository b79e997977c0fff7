import CurveSketch.Polyline
import Mathlib.Data.List.SplitBy
import Mathlib.Data.List.Nodup
import Mathlib.Data.List.Infix
import Mathlib.Data.List.ReduceOption

/-!
# CurveSketch.Proofs.Polyline

What the lines of a curve are. Points are told apart by the column of their entry, so that equal
points at two columns stay two. `split` groups the placed points by `joins` (`splitFrom_eq`), and
the drawing it gives is the only one whose lines hold all points in order, join neighbours exactly
where the height allows it and cross no gap (`split_draws`).
-/

namespace CurveSketch

section Neighbours

variable {α : Type}

theorem pair_infix_append {a b : α} {l m : List α} (h : [a, b] <:+: l ++ m) :
    [a, b] <:+: l ∨ [a, b] <:+: m ∨ (l.getLast? = some a ∧ m.head? = some b) := by
  induction l with
  | nil => exact .inr (.inl h)
  | cons x l ih =>
    rcases List.infix_cons_iff.mp h with hfirst | hrest
    · obtain ⟨rest, hrest⟩ := hfirst
      cases l with
      | nil =>
        simp only [List.cons_append, List.nil_append, List.cons.injEq] at hrest
        obtain ⟨rfl, rfl⟩ := hrest
        exact .inr (.inr ⟨rfl, rfl⟩)
      | cons y l =>
        simp only [List.cons_append, List.nil_append, List.cons.injEq] at hrest
        obtain ⟨rfl, rfl, -⟩ := hrest
        exact .inl ⟨[], l, rfl⟩
    · rcases ih hrest with hl | hm | ⟨hlast, hhead⟩
      · exact .inl (List.infix_cons hl)
      · exact .inr (.inl hm)
      · refine .inr (.inr ⟨?_, hhead⟩)
        rw [List.getLast?_cons, hlast, Option.getD_some]

/-- Neighbours in a list of lines laid end to end are neighbours in a line, or end one line and
begin the next. -/
theorem pair_infix_flatten {a b : α} {lines : List (List α)} (hn : [] ∉ lines)
    (h : [a, b] <:+: lines.flatten) :
    (∃ line ∈ lines, [a, b] <:+: line) ∨
      ∃ line next, [line, next] <:+: lines ∧ line.getLast? = some a ∧ next.head? = some b := by
  induction lines with
  | nil => simp at h
  | cons line lines ih =>
    have hn' : [] ∉ lines := fun h => hn (List.mem_cons_of_mem _ h)
    rcases pair_infix_append h with hline | hrest | ⟨hlast, hhead⟩
    · exact .inl ⟨line, List.mem_cons_self, hline⟩
    · rcases ih hn' hrest with ⟨l, hl, hpair⟩ | ⟨l, next, hpair, hends⟩
      · exact .inl ⟨l, List.mem_cons_of_mem _ hl, hpair⟩
      · exact .inr ⟨l, next, List.infix_cons hpair, hends⟩
    · cases lines with
      | nil => simp at hhead
      | cons next lines =>
        cases next with
        | nil => simp at hn'
        | cons c next => exact .inr ⟨line, c :: next, ⟨[], lines, rfl⟩, hlast, hhead⟩

theorem infix_flatten_of_mem {l : List α} {lines : List (List α)} (h : l ∈ lines) :
    l <:+: lines.flatten := by
  obtain ⟨before, after, rfl⟩ := List.append_of_mem h
  exact ⟨before.flatten, after.flatten, by simp⟩

theorem pair_infix_of_ends {a b : α} {line next : List α} {lines : List (List α)}
    (h : [line, next] <:+: lines) (ha : line.getLast? = some a) (hb : next.head? = some b) :
    [a, b] <:+: lines.flatten := by
  obtain ⟨before, after, rfl⟩ := h
  obtain ⟨front, rfl⟩ := List.getLast?_eq_some_iff.mp ha
  obtain ⟨back, rfl⟩ := List.head?_eq_some_iff.mp hb
  exact ⟨before.flatten ++ front, back ++ after.flatten, by simp⟩

/-- Among lines without a common point, the one with both points of a pair is no line that ends or
begins with only one of them. -/
theorem not_mem_of_ends {a b : α} {line next : List α} {lines : List (List α)}
    (hnodup : lines.flatten.Nodup) (h : [line, next] <:+: lines) (ha : a ∈ line) (hb : b ∈ next)
    {l : List α} (hl : l ∈ lines) : ¬ (a ∈ l ∧ b ∈ l) := by
  rintro ⟨hal, hbl⟩
  have : Std.Symm (List.Disjoint (α := α)) := ⟨fun _ _ => List.disjoint_symm⟩
  obtain ⟨-, hdisjoint⟩ := List.nodup_flatten.mp hnodup
  have hmem : line ∈ lines := h.subset (by simp)
  have hmem' : next ∈ lines := h.subset (by simp)
  have hsame : ∀ m ∈ lines, ∀ c ∈ l, c ∈ m → l = m := by
    intro m hm c hcl hcm
    by_contra hne
    exact hdisjoint.forall hl hm hne hcl hcm
  have hapart : List.Disjoint line next := by
    have := hdisjoint.sublist h.sublist
    simpa using this
  rw [← hsame line hmem a hal ha, ← hsame next hmem' b hbl hb] at hapart
  exact hapart hal hal

theorem splitBy_eq_iff_neighbours {r : α → α → Bool} {m : List α} (hm : m.Nodup)
    {lines : List (List α)} :
    m.splitBy r = lines ↔ m = lines.flatten ∧ [] ∉ lines ∧
      ∀ a b, [a, b] <:+: m → ((∃ line ∈ lines, [a, b] <:+: line) ↔ r a b = true) := by
  rw [List.splitBy_eq_iff]
  constructor
  · rintro ⟨rfl, hn, hchain, hends⟩
    refine ⟨rfl, hn, ?_⟩
    intro a b hab
    constructor
    · rintro ⟨line, hline, hpair⟩
      simpa using List.IsChain.infix (hchain line hline) hpair
    · intro hr
      rcases pair_infix_flatten hn hab with hin | ⟨line, next, hpair, ha, hb⟩
      · exact hin
      · -- Where one line ends and the next begins, the two are not related.
        obtain ⟨hline, hnext, hr'⟩ := by simpa using List.IsChain.infix hends hpair
        rw [List.getLast?_eq_some_getLast hline, Option.some.injEq] at ha
        rw [List.head?_eq_some_head hnext, Option.some.injEq] at hb
        rw [ha, hb, hr] at hr'
        cases hr'
  · rintro ⟨rfl, hn, hpairs⟩
    refine ⟨rfl, hn, ?_, ?_⟩
    · intro line hline
      rw [List.isChain_iff_forall_rel_of_append_cons_cons]
      rintro a b front back rfl
      have hpair : [a, b] <:+: front ++ a :: b :: back := ⟨front, back, by simp⟩
      exact (hpairs a b (hpair.trans (infix_flatten_of_mem hline))).mp ⟨_, hline, hpair⟩
    · rw [List.isChain_iff_forall_rel_of_append_cons_cons]
      rintro line next before after rfl
      have hadjacent : [line, next] <:+: before ++ line :: next :: after :=
        ⟨before, after, by simp⟩
      have hline : line ≠ [] := fun h => hn (by simp [h])
      have hnext : next ≠ [] := fun h => hn (by simp [h])
      refine ⟨hline, hnext, ?_⟩
      by_contra hr
      -- If they were, both would be in one line, and that line would be both of these.
      have hpair := pair_infix_of_ends hadjacent (List.getLast?_eq_some_getLast hline)
        (List.head?_eq_some_head hnext)
      obtain ⟨l, hl, hin⟩ := (hpairs _ _ hpair).mpr (by simpa using hr)
      exact not_mem_of_ends hm hadjacent (List.getLast_mem hline) (List.head_mem hnext) hl
        ⟨hin.subset (by simp), hin.subset (by simp)⟩

end Neighbours

namespace Polyline

/-- The points among the entries, each with its column. -/
def placedFrom : Nat → List Sample → List (Nat × Point)
  | _, [] => []
  | i, none :: rest => placedFrom (i + 1) rest
  | i, some p :: rest => (i, p) :: placedFrom (i + 1) rest

@[simp]
theorem map_snd_placedFrom (i : Nat) (entries : List Sample) :
    (placedFrom i entries).map Prod.snd = entries.reduceOption := by
  induction entries generalizing i with
  | nil => rfl
  | cons entry rest ih => cases entry <;> simp [placedFrom, ih]

theorem mem_placedFrom {i : Nat} {entries : List Sample} {a : Nat × Point} :
    a ∈ placedFrom i entries ↔ i ≤ a.1 ∧ entries[a.1 - i]? = some (some a.2) := by
  induction entries generalizing i with
  | nil => simp [placedFrom]
  | cons entry rest ih =>
    obtain ⟨j, q⟩ := a
    rcases Nat.lt_trichotomy i j with hlt | rfl | hgt
    · obtain ⟨k, rfl⟩ : ∃ k, j = i + 1 + k := ⟨j - (i + 1), by omega⟩
      have hsub : i + 1 + k - i = k + 1 := by omega
      cases entry <;> (simp [placedFrom, ih, hsub, hlt.le]; try omega)
    · cases entry <;> simp [placedFrom, ih, eq_comm]
    · cases entry <;> simp [placedFrom, ih] <;> omega

theorem mem_placedFrom_zero {entries : List Sample} {a : Nat × Point} :
    a ∈ placedFrom 0 entries ↔ entries[a.1]? = some (some a.2) := by
  simp [mem_placedFrom]

theorem placedFrom_sorted (i : Nat) (entries : List Sample) :
    (placedFrom i entries).Pairwise fun a b => a.1 < b.1 := by
  induction entries generalizing i with
  | nil => exact .nil
  | cons entry rest ih =>
    cases entry with
    | none => exact ih (i + 1)
    | some p => exact .cons (fun b hb => (mem_placedFrom.mp hb).1) (ih (i + 1))

theorem placedFrom_nodup (i : Nat) (entries : List Sample) : (placedFrom i entries).Nodup :=
  (placedFrom_sorted i entries).imp fun h => fun heq => by simp [heq] at h

theorem neighbours_iff {m : List (Nat × Point)} (hm : m.Pairwise fun a b => a.1 < b.1)
    {a b : Nat × Point} :
    [a, b] <:+: m ↔ a ∈ m ∧ b ∈ m ∧ a.1 < b.1 ∧ ∀ c ∈ m, ¬ (a.1 < c.1 ∧ c.1 < b.1) := by
  constructor
  · rintro ⟨front, back, rfl⟩
    simp only [List.pairwise_append, List.pairwise_cons, List.mem_append, List.mem_cons,
      List.not_mem_nil, or_false] at hm
    grind
  · rintro ⟨ha, hb, hlt, hnone⟩
    obtain ⟨front, back, rfl⟩ := List.append_of_mem ha
    simp only [List.pairwise_append, List.pairwise_cons] at hm
    obtain ⟨-, ⟨hafter, hback⟩, hbefore⟩ := hm
    have hb' : b ∈ back := by grind
    cases back with
    | nil => simp at hb'
    | cons c back =>
      rcases List.mem_cons.mp hb' with rfl | hb'
      · exact ⟨front, back, by simp⟩
      · have hc := (List.pairwise_cons.mp hback).1 b hb'
        exact absurd ⟨hafter c (by simp), hc⟩ (hnone c (by simp))

/-- Points at consecutive columns, near enough for one stroke. -/
def joins (height : Number) (a b : Nat × Point) : Bool :=
  a.1 + 1 == b.1 && !a.2.breaks height b.2

theorem joins_iff {height : Number} {a b : Nat × Point} :
    joins height a b = true ↔ a.1 + 1 = b.1 ∧ a.2.breaks height b.2 = false := by
  simp [joins]

theorem splitBy_chain {height : Number} {line : List (Nat × Point)}
    (h : line.reverse.IsChain fun a b => joins height a b = true) :
    (line.reverse.splitBy (joins height)).map (List.map Prod.snd) =
      close (line.map Prod.snd) [] := by
  cases line with
  | nil => rfl
  | cons a line =>
    rw [List.splitBy_of_isChain (by simp) h]
    simp [close]

theorem close_append (line : List Point) (following : List (List Point)) :
    close line [] ++ following = close line following := by
  cases line <;> simp [close]

/-- Splitting is grouping by `joins`: the line under construction holds, latest first, the points up
to the column before `i`. -/
theorem splitFrom_eq {height : Number} {line : List (Nat × Point)}
    (hline : line.reverse.IsChain fun a b => joins height a b = true) {i : Nat}
    (hlast : ∀ a ∈ line.head?, a.1 + 1 = i) (rest : List Sample) :
    splitFrom height (line.map Prod.snd) rest =
      ((line.reverse ++ placedFrom i rest).splitBy (joins height)).map (List.map Prod.snd) := by
  induction rest generalizing line i with
  | nil =>
    rw [placedFrom, List.append_nil, splitBy_chain hline, splitFrom]
  | cons entry rest ih =>
    cases entry with
    | none =>
      -- The points that follow are at least two columns to the right of the last one.
      have hapart : ∀ a ∈ line.reverse.getLast?, ∀ b ∈ (placedFrom (i + 1) rest).head?,
          joins height a b = false := by
        intro a ha b hb
        have hai := hlast a (by simpa using ha)
        have hib := (mem_placedFrom.mp (List.mem_of_mem_head? hb)).1
        rw [joins, show (a.1 + 1 == b.1) = false by simp; omega, Bool.false_and]
      have hfresh := @ih [] .nil (i + 1) (by simp)
      rw [List.map_nil, List.reverse_nil, List.nil_append] at hfresh
      rw [splitFrom, placedFrom, List.splitBy_append hapart, List.map_append,
        splitBy_chain hline, close_append, hfresh]
    | some p =>
      cases line with
      | nil =>
        have hfirst := @ih [(i, p)] (by simp) (i + 1) (by simp)
        simpa [splitFrom, placedFrom] using hfirst
      | cons last line =>
        have hi : last.1 + 1 = i := hlast last (by simp)
        have hfirst := @ih [(i, p)] (by simp) (i + 1) (by simp)
        rw [List.map_cons, splitFrom]
        split
        · rename_i hbreak
          have hapart : ∀ a ∈ (last :: line).reverse.getLast?,
              ∀ b ∈ (placedFrom i (some p :: rest)).head?, joins height a b = false := by
            intro a ha b hb
            obtain rfl : last = a := by simpa using ha
            obtain rfl : (i, p) = b := by simpa [placedFrom] using hb
            simp [joins, hbreak]
          rw [List.splitBy_append hapart, List.map_append, splitBy_chain hline, close_append,
            List.map_cons]
          simpa [placedFrom] using congrArg (close (last.2 :: line.map Prod.snd)) hfirst
        · rename_i hnear
          have hnext : ((i, p) :: last :: line).reverse.IsChain
              fun a b => joins height a b = true := by
            rw [List.reverse_cons, List.isChain_append]
            refine ⟨hline, by simp, ?_⟩
            intro a ha b hb
            obtain rfl : last = a := by simpa using ha
            obtain rfl : (i, p) = b := by simpa using hb
            exact joins_iff.mpr ⟨hi, by simpa using hnear⟩
          have hlonger := ih hnext (i := i + 1) (by simp)
          simpa [placedFrom] using hlonger

/-- The lines with the columns of their points. -/
def placedLines (height : Number) (entries : List Sample) : List (List (Nat × Point)) :=
  (placedFrom 0 entries).splitBy (joins height)

theorem split_eq (height : Number) (entries : List Sample) :
    split height entries = (placedLines height entries).map (List.map Prod.snd) := by
  have h := @splitFrom_eq height [] .nil 0 (by simp) entries
  simpa [split, placedLines] using h

theorem flatten_placedLines (height : Number) (entries : List Sample) :
    (placedLines height entries).flatten = placedFrom 0 entries :=
  List.flatten_splitBy _ _

theorem flatten_split (height : Number) (entries : List Sample) :
    (split height entries).flatten = (placedFrom 0 entries).map Prod.snd := by
  rw [split_eq, ← List.map_flatten, flatten_placedLines]

theorem columns_consecutive {height : Number} {entries : List Sample} {line : List (Nat × Point)}
    (h : line ∈ placedLines height entries) : line.IsChain fun a b => a.1 + 1 = b.1 :=
  (List.isChain_of_mem_splitBy h).imp fun _ _ hab => (joins_iff.mp hab).1

theorem map_fst_eq_range' {line : List (Nat × Point)} (h : line.IsChain fun a b => a.1 + 1 = b.1) :
    ∃ first, line.map Prod.fst = List.range' first line.length := by
  induction line with
  | nil => exact ⟨0, rfl⟩
  | cons a line ih =>
    refine ⟨a.1, ?_⟩
    cases line with
    | nil => rfl
    | cons b line =>
      obtain ⟨hab, hrest⟩ := List.isChain_cons_cons.mp h
      obtain ⟨first, hfirst⟩ := ih hrest
      obtain rfl : b.1 = first := by simpa [List.range'_succ] using congrArg List.head? hfirst
      calc (a :: b :: line).map Prod.fst
          = a.1 :: List.range' b.1 (b :: line).length := by rw [List.map_cons, hfirst]
        _ = List.range' a.1 (a :: b :: line).length := by rw [← hab]; rfl

/-- What it is for the lines to draw the entries, given the column of each of their points. -/
structure IsDrawing (height : Number) (entries : List Sample) (lines : List (List Point))
    (placed : List (List (Nat × Point))) : Prop where
  points : placed.map (List.map Prod.snd) = lines
  /-- The points, each at the column of its entry, in the order of the entries. -/
  complete : placed.flatten = placedFrom 0 entries
  nonempty : [] ∉ lines
  joined : ∀ i p q, entries[i]? = some (some p) → entries[i + 1]? = some (some q) →
    ((∃ line ∈ placed, [(i, p), (i + 1, q)] <:+: line) ↔
      height.below (q.y - p.y).abs = false)
  apart : ∀ i j k p q, i < j → j < k → entries[j]? = some none →
    ∀ line ∈ placed, ¬ ((i, p) ∈ line ∧ (k, q) ∈ line)

theorem mem_of_mem_line {height : Number} {entries : List Sample} {line : List (Nat × Point)}
    (h : line ∈ placedLines height entries) {a : Nat × Point} (ha : a ∈ line) :
    entries[a.1]? = some (some a.2) := by
  have hall := List.mem_flatten.mpr ⟨line, h, ha⟩
  rw [flatten_placedLines] at hall
  exact mem_placedFrom_zero.mp hall

theorem exists_between {line : List (Nat × Point)} (h : line.IsChain fun a b => a.1 + 1 = b.1)
    {i j k : Nat} {p q : Point} (hp : (i, p) ∈ line) (hq : (k, q) ∈ line) (hij : i < j)
    (hjk : j < k) : ∃ r, (j, r) ∈ line := by
  obtain ⟨first, hfirst⟩ := map_fst_eq_range' h
  have hcolumn : ∀ n, (∃ r, (n, r) ∈ line) ↔ first ≤ n ∧ n < first + line.length := by
    intro n
    rw [← List.mem_range'_1, ← hfirst]
    simp
  have hi := (hcolumn i).mp ⟨p, hp⟩
  have hk := (hcolumn k).mp ⟨q, hq⟩
  exact (hcolumn j).mpr ⟨by omega, by omega⟩

/-- Neighbours in the order of columns either are at consecutive columns or have a gap between. -/
theorem gap_between {entries : List Sample} {a b : Nat × Point}
    (h : [a, b] <:+: placedFrom 0 entries) (hfar : a.1 + 1 ≠ b.1) :
    a.1 + 1 < b.1 ∧ entries[a.1 + 1]? = some none := by
  obtain ⟨-, hb, hlt, hnone⟩ := (neighbours_iff (placedFrom_sorted 0 entries)).mp h
  refine ⟨by omega, ?_⟩
  cases hentry : entries[a.1 + 1]? with
  | none =>
    have hlength := List.getElem?_eq_none_iff.mp hentry
    rw [mem_placedFrom_zero, List.getElem?_eq_none (by omega)] at hb
    cases hb
  | some entry =>
    cases entry with
    | none => rfl
    | some r =>
      have hmem : (a.1 + 1, r) ∈ placedFrom 0 entries := mem_placedFrom_zero.mpr hentry
      exact absurd ⟨Nat.lt_succ_self a.1, by omega⟩ (hnone _ hmem)

theorem isDrawing_placedLines (height : Number) (entries : List Sample) :
    IsDrawing height entries (split height entries) (placedLines height entries) where
  points := (split_eq height entries).symm
  complete := flatten_placedLines height entries
  nonempty := by
    rw [split_eq]
    simp [placedLines]
  joined := by
    intro i p q hp hq
    have hpair : [(i, p), (i + 1, q)] <:+: placedFrom 0 entries :=
      (neighbours_iff (placedFrom_sorted 0 entries)).mpr
        ⟨mem_placedFrom_zero.mpr hp, mem_placedFrom_zero.mpr hq, by simp, by grind⟩
    obtain ⟨-, -, htogether⟩ :=
      (splitBy_eq_iff_neighbours (placedFrom_nodup 0 entries)).mp
        (rfl : _ = placedLines height entries)
    rw [htogether _ _ hpair, joins_iff]
    simp [Point.breaks]
  apart := by
    intro i j k p q hij hjk hgap line hline ⟨hp, hq⟩
    obtain ⟨r, hr⟩ := exists_between (columns_consecutive hline) hp hq hij hjk
    rw [mem_of_mem_line hline hr] at hgap
    cases hgap

theorem IsDrawing.eq_placedLines {height : Number} {entries : List Sample}
    {lines : List (List Point)} {placed : List (List (Nat × Point))}
    (h : IsDrawing height entries lines placed) : placed = placedLines height entries := by
  refine ((splitBy_eq_iff_neighbours (placedFrom_nodup 0 entries)).mpr
    ⟨h.complete.symm, ?_, ?_⟩).symm
  · intro hnil
    refine h.nonempty ?_
    rw [← h.points]
    exact List.mem_map.mpr ⟨[], hnil, rfl⟩
  · intro a b hpair
    obtain ⟨ha, hb, -⟩ := (neighbours_iff (placedFrom_sorted 0 entries)).mp hpair
    rw [mem_placedFrom_zero] at ha hb
    rw [joins_iff]
    by_cases hnext : a.1 + 1 = b.1
    · rw [← hnext] at hb
      have hjoined := h.joined a.1 a.2 b.2 ha hb
      rw [hnext] at hjoined
      rw [hjoined]
      simp [hnext, Point.breaks]
    · obtain ⟨hlt, hgap⟩ := gap_between hpair hnext
      constructor
      · rintro ⟨line, hline, hin⟩
        exact absurd ⟨hin.subset (by simp), hin.subset (by simp)⟩
          (h.apart a.1 (a.1 + 1) b.1 a.2 b.2 (by omega) hlt hgap line hline)
      · rintro ⟨hnext', -⟩
        exact absurd hnext' hnext

/-- The lines draw the entries, and no other lines do. -/
theorem split_draws (height : Number) (entries : List Sample) :
    (split height entries).flatten = entries.reduceOption ∧
    ∀ lines, (∃ placed, IsDrawing height entries lines placed) ↔ lines = split height entries := by
  constructor
  · rw [flatten_split, map_snd_placedFrom]
  · intro lines
    constructor
    · rintro ⟨placed, h⟩
      rw [← h.points, h.eq_placedLines, split_eq]
    · rintro rfl
      exact ⟨_, isDrawing_placedLines height entries⟩

example : split (.whole 2) [none, some ⟨1, 0⟩, some ⟨2, 2⟩, some ⟨3, 5⟩, none, some ⟨5, 5⟩] =
    [[⟨1, 0⟩, ⟨2, 2⟩], [⟨3, 5⟩], [⟨5, 5⟩]] :=
  rfl

end Polyline
end CurveSketch
