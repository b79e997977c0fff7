import CurveSketch.Proofs.Windows

/-!
# CurveSketch.Proofs.Ranges

Which values are ranges. A value is one if it has two items, no more and no fewer, that are read as
finite doubles in increasing order (`Range.IsPair`), and then the range has these bounds. Everything
else is refused for a reason of its own (`Range.Refused`), the one of the x axis before the one of
the y axis (`Window.ofValues_iff`). All reasons but one are about the axis and name it; the one that
does not is a whole number beyond the doubles among the first three items (`Range.Overflows`).
-/

namespace CurveSketch

open Decimal

namespace Range

/-- The value has two items, and they are read as the bounds of the range. -/
structure IsPair (v : Value) (r : Range) : Prop where
  items : ∃ a b, v.elements? = some [a, b] ∧ a.toReal = .ok r.low ∧ b.toReal = .ok r.high
  valid : r.Valid

def Readable (items : List Value) : Prop :=
  ∀ v ∈ items, ∃ x, v.toReal = .ok x

/-- What a value that is no range is refused with. No more than three of its items are looked at,
from the first to the last. -/
inductive Refused (axis : Axis) (v : Value) : RangeFault → Prop where
  | notIterable (elements : v.elements? = none) : Refused axis v (.notPair axis)
  | notNumber {before rest : List Value} {item : Value} {fault : RealFault}
      (elements : v.elements? = some (before ++ item :: rest)) (early : before.length < 3)
      (readable : Readable before) (read : item.toReal = .error fault)
      (small : fault ≠ .tooLarge) : Refused axis v (.notPair axis)
  | tooLarge {before rest : List Value} {item : Value}
      (elements : v.elements? = some (before ++ item :: rest)) (early : before.length < 3)
      (readable : Readable before) (read : item.toReal = .error .tooLarge) :
      Refused axis v .tooLarge
  | count {items : List Value} (elements : v.elements? = some items)
      (readable : Readable (items.take 3)) (count : items.length ≠ 2) :
      Refused axis v (.notPair axis)
  | notFinite {a b : Value} {low high : Float} (elements : v.elements? = some [a, b])
      (readLow : a.toReal = .ok low) (readHigh : b.toReal = .ok high)
      (infinite : ¬(low.isFinite = true ∧ high.isFinite = true)) : Refused axis v (.notFinite axis)
  | notIncreasing {a b : Value} {low high : Float} (elements : v.elements? = some [a, b])
      (readLow : a.toReal = .ok low) (readHigh : b.toReal = .ok high)
      (finite : low.isFinite = true ∧ high.isFinite = true) (order : ¬low < high) :
      Refused axis v (.notIncreasing axis)

/-! ## Reading the items -/

theorem reals_eq_ok {items : List Value} {xs : List Float} :
    reals items = .ok xs ↔ List.Forall₂ (fun v x => v.toReal = .ok x) items xs := by
  induction items generalizing xs with
  | nil => cases xs <;> simp [reals]
  | cons v rest ih =>
    cases xs with
    | nil => cases hv : v.toReal <;> cases hrest : reals rest <;> simp [reals, hv, hrest]
    | cons x xs =>
      rw [List.forall₂_cons, ← ih]
      cases hv : v.toReal <;> cases hrest : reals rest <;> simp [reals, hv, hrest]

theorem reals_eq_error {items : List Value} {fault : RealFault} :
    reals items = .error fault ↔ ∃ before item rest, items = before ++ item :: rest ∧
      Readable before ∧ item.toReal = .error fault := by
  induction items with
  | nil => simp [reals]
  | cons v rest ih =>
    cases hv : v.toReal with
    | error first =>
      simp only [reals, hv, Except.error.injEq]
      constructor
      · rintro rfl
        exact ⟨[], v, rest, rfl, by simp [Readable], hv⟩
      · rintro ⟨_ | ⟨w, before⟩, item, after, hitems, hreadable, hread⟩ <;> cases hitems
        · exact Except.error.inj (hv.symm.trans hread)
        · obtain ⟨x, hx⟩ := hreadable v (.head _)
          exact absurd (hv.symm.trans hx) (by simp)
    | ok x =>
      have hstep : reals (v :: rest) = .error fault ↔ reals rest = .error fault := by
        cases hrest : reals rest <;> simp [reals, hv, hrest]
      rw [hstep, ih]
      constructor
      · rintro ⟨before, item, after, rfl, hreadable, hread⟩
        exact ⟨v :: before, item, after, rfl, List.forall_mem_cons.mpr ⟨⟨x, hv⟩, hreadable⟩, hread⟩
      · rintro ⟨_ | ⟨w, before⟩, item, after, hitems, hreadable, hread⟩ <;> cases hitems
        · exact absurd (hv.symm.trans hread) (by simp)
        · exact ⟨before, item, after, rfl, fun w hw => hreadable w (.tail _ hw), hread⟩

theorem readable_of_reals {items : List Value} {xs : List Float} (h : reals items = .ok xs) :
    Readable items ∧ xs.length = items.length := by
  have hread := reals_eq_ok.mp h
  clear h
  refine ⟨?_, hread.length_eq.symm⟩
  induction hread with
  | nil => simp [Readable]
  | cons hv hrest ih => exact List.forall_mem_cons.mpr ⟨⟨_, hv⟩, ih⟩

theorem exists_reals {items : List Value} (h : Readable items) : ∃ xs, reals items = .ok xs := by
  cases hread : reals items with
  | ok xs => exact ⟨xs, rfl⟩
  | error fault =>
    obtain ⟨before, item, rest, rfl, -, hitem⟩ := reals_eq_error.mp hread
    obtain ⟨x, hx⟩ := h item (by simp)
    exact absurd (hx.symm.trans hitem) (by simp)

theorem reals_take_eq_pair {items : List Value} {low high : Float} :
    reals (items.take 3) = .ok [low, high] ↔
      ∃ a b, items = [a, b] ∧ a.toReal = .ok low ∧ b.toReal = .ok high := by
  rw [reals_eq_ok]
  rcases items with _ | ⟨a, _ | ⟨b, _ | ⟨c, rest⟩⟩⟩ <;> simp

theorem take_three {before : List Value} (item : Value) (rest : List Value)
    (h : before.length < 3) :
    (before ++ item :: rest).take 3 = before ++ item :: rest.take (2 - before.length) := by
  rw [List.take_append, List.take_of_length_le (by omega),
    show 3 - before.length = 2 - before.length + 1 by omega, List.take_succ_cons]

theorem reals_take_eq_error {items : List Value} {fault : RealFault} :
    reals (items.take 3) = .error fault ↔ ∃ before item rest, items = before ++ item :: rest ∧
      before.length < 3 ∧ Readable before ∧ item.toReal = .error fault := by
  rw [reals_eq_error]
  constructor
  · rintro ⟨before, item, rest, htake, hreadable, hread⟩
    refine ⟨before, item, rest ++ items.drop 3, ?_, ?_, hreadable, hread⟩
    · rw [← List.cons_append, ← List.append_assoc, ← htake, List.take_append_drop]
    · have hlength := congrArg List.length htake
      rw [List.length_take, List.length_append, List.length_cons] at hlength
      omega
  · rintro ⟨before, item, rest, rfl, hearly, hreadable, hread⟩
    exact ⟨before, item, _, take_three item rest hearly, hreadable, hread⟩

/-! ## Values that are ranges, and values that are none -/

theorem ofItems_eq_ok {axis : Axis} {items : List Value} {r : Range} :
    ofItems axis items = .ok r ↔ reals (items.take 3) = .ok [r.low, r.high] ∧ r.Valid := by
  unfold ofItems
  constructor
  · intro h
    split at h
    · rename_i low high hread
      obtain ⟨hvalid, rfl⟩ := ofBounds_eq_ok.mp h
      exact ⟨hread, hvalid⟩
    · cases h
    · cases h
  · rintro ⟨hread, hvalid⟩
    rw [hread]
    exact ofBounds_eq_ok.mpr ⟨hvalid, rfl⟩

theorem ofValue_eq_ok {axis : Axis} {v : Value} {r : Range} :
    ofValue axis v = .ok r ↔ IsPair v r := by
  unfold ofValue
  constructor
  · intro h
    split at h
    · rename_i items hitems
      obtain ⟨hread, hvalid⟩ := ofItems_eq_ok.mp h
      obtain ⟨a, b, rfl, ha, hb⟩ := reals_take_eq_pair.mp hread
      exact ⟨⟨a, b, hitems, ha, hb⟩, hvalid⟩
    · cases h
  · rintro ⟨⟨a, b, hitems, ha, hb⟩, hvalid⟩
    rw [hitems]
    exact ofItems_eq_ok.mpr ⟨reals_take_eq_pair.mpr ⟨a, b, rfl, ha, hb⟩, hvalid⟩

theorem ofBounds_of_infinite (axis : Axis) {low high : Float}
    (h : ¬(low.isFinite = true ∧ high.isFinite = true)) :
    ofBounds axis low high = .error (.notFinite axis) := by
  unfold ofBounds
  rw [if_neg (by rwa [Bool.and_eq_true])]

theorem ofBounds_of_not_lt (axis : Axis) {low high : Float}
    (hfinite : low.isFinite = true ∧ high.isFinite = true) (h : ¬low < high) :
    ofBounds axis low high = .error (.notIncreasing axis) := by
  unfold ofBounds
  rw [if_pos (by rwa [Bool.and_eq_true]), if_neg h]

theorem refused_of_ofValue {axis : Axis} {v : Value} {fault : RangeFault}
    (h : ofValue axis v = .error fault) : Refused axis v fault := by
  unfold ofValue at h
  split at h
  case h_2 hnone =>
    cases h
    exact .notIterable hnone
  case h_1 items hitems =>
    unfold ofItems at h
    split at h
    case h_1 low high hread =>
      obtain ⟨a, b, rfl, ha, hb⟩ := reals_take_eq_pair.mp hread
      by_cases hfinite : low.isFinite = true ∧ high.isFinite = true
      · by_cases horder : low < high
        · have hok : ofBounds axis low high = .ok ⟨low, high⟩ :=
            ofBounds_eq_ok.mpr ⟨⟨hfinite.1, hfinite.2, horder⟩, rfl⟩
          rw [hok] at h
          cases h
        · rw [ofBounds_of_not_lt axis hfinite horder] at h
          cases h
          exact .notIncreasing hitems ha hb hfinite horder
      · rw [ofBounds_of_infinite axis hfinite] at h
        cases h
        exact .notFinite hitems ha hb hfinite
    case h_2 hread =>
      cases h
      obtain ⟨before, item, rest, rfl, hearly, hreadable, hitem⟩ := reals_take_eq_error.mp hread
      exact .tooLarge hitems hearly hreadable hitem
    case h_3 hpair hsmall =>
      cases h
      cases hread : reals (items.take 3) with
      | error fault =>
        obtain ⟨before, item, rest, rfl, hearly, hreadable, hitem⟩ := reals_take_eq_error.mp hread
        refine .notNumber hitems hearly hreadable hitem ?_
        rintro rfl
        exact hsmall hread
      | ok xs =>
        obtain ⟨hreadable, hlength⟩ := readable_of_reals hread
        refine .count hitems hreadable fun hcount => ?_
        rw [List.length_take, hcount] at hlength
        obtain ⟨low, high, rfl⟩ := List.length_eq_two.mp hlength
        exact hpair low high hread

theorem Refused.ofValue_eq {axis : Axis} {v : Value} {fault : RangeFault}
    (h : Refused axis v fault) : ofValue axis v = .error fault := by
  unfold ofValue
  cases h with
  | notIterable elements => rw [elements]
  | @notNumber before rest item fault elements early readable read small =>
    have hread := reals_take_eq_error.mpr ⟨before, item, rest, rfl, early, readable, read⟩
    simp only [elements, ofItems, hread]
    cases fault with
    | tooLarge => exact absurd rfl small
    | notNumeric | unreadable => rfl
  | @tooLarge before rest item elements early readable read =>
    have hread := reals_take_eq_error.mpr ⟨before, item, rest, rfl, early, readable, read⟩
    simp only [elements, ofItems, hread]
  | count elements readable count =>
    obtain ⟨xs, hread⟩ := exists_reals readable
    have hlength := (readable_of_reals hread).2
    rw [List.length_take] at hlength
    simp only [elements, ofItems, hread]
    rcases xs with _ | ⟨low, _ | ⟨high, _ | ⟨third, others⟩⟩⟩
    case cons.cons.nil => simp only [List.length_cons, List.length_nil] at hlength; omega
    all_goals rfl
  | notFinite elements readLow readHigh infinite =>
    have hread := reals_take_eq_pair.mpr ⟨_, _, rfl, readLow, readHigh⟩
    simp only [elements, ofItems, hread]
    exact ofBounds_of_infinite axis infinite
  | notIncreasing elements readLow readHigh finite order =>
    have hread := reals_take_eq_pair.mpr ⟨_, _, rfl, readLow, readHigh⟩
    simp only [elements, ofItems, hread]
    exact ofBounds_of_not_lt axis finite order

theorem refused_iff {axis : Axis} {v : Value} {fault : RangeFault} :
    ofValue axis v = .error fault ↔ Refused axis v fault :=
  ⟨refused_of_ofValue, Refused.ofValue_eq⟩

/-- Every reason but one names the axis. -/
theorem Refused.names {axis : Axis} {v : Value} {fault : RangeFault} (h : Refused axis v fault)
    (hfault : fault.isOverflow = false) : ∃ problem, fault.message = axis.rangeName ++ problem := by
  cases h with
  | notIterable | notNumber | count => exact ⟨" must be a pair of numbers", rfl⟩
  | notFinite => exact ⟨" bounds must be finite", rfl⟩
  | notIncreasing => exact ⟨" minimum must be less than its maximum", rfl⟩
  | tooLarge => cases hfault

/-- One of the items that are looked at is a whole number beyond the doubles. -/
def Overflows (v : Value) : Prop :=
  ∃ items, ∃ n : Int, v.elements? = some items ∧ .int n ∈ items.take 3 ∧ overflow ≤ |(n : ℚ)|

theorem toReal_eq_tooLarge {v : Value} :
    v.toReal = .error .tooLarge ↔ ∃ n : Int, v = .int n ∧ overflow ≤ |(n : ℚ)| := by
  cases v with
  | int n =>
    rw [Value.toReal, Value.realOfInt]
    simp only [← ofInt?_eq_none_iff]
    cases hreal : ofInt? n <;> simp [hreal]
  | text s =>
    rw [Value.toReal]
    split <;> simp
  | _ => simp [Value.toReal]

theorem Refused.overflows {axis : Axis} {v : Value} {fault : RangeFault}
    (h : Refused axis v fault) (hfault : fault.isOverflow = true) : Overflows v := by
  cases h with
  | notIterable | notNumber | count | notFinite | notIncreasing => cases hfault
  | @tooLarge before rest item elements early readable read =>
    obtain ⟨n, rfl, hn⟩ := toReal_eq_tooLarge.mp read
    refine ⟨_, n, elements, ?_, hn⟩
    rw [take_three _ rest early]
    simp

end Range

namespace Window

/-- Windows are made of two pairs of numbers and of nothing else. What is refused is refused for
the x axis first, and for a reason that names the axis unless a whole number beyond the doubles
is among the first items. -/
theorem ofValues_iff (x y : Value) :
    (∀ w, ofValues x y = .ok w ↔ Range.IsPair x w.xRange ∧ Range.IsPair y w.yRange) ∧
    (∀ fault, ofValues x y = .error fault ↔
      Range.Refused .x x fault ∨ (∃ r, Range.IsPair x r) ∧ Range.Refused .y y fault) ∧
    ∀ fault, ofValues x y = .error fault →
      fault.isOverflow = false ∨ Range.Overflows x ∨ Range.Overflows y := by
  have hrefused (fault : RangeFault) : ofValues x y = .error fault ↔
      Range.Refused .x x fault ∨ (∃ r, Range.IsPair x r) ∧ Range.Refused .y y fault := by
    simp only [← Range.refused_iff, ← @Range.ofValue_eq_ok .x]
    unfold ofValues
    cases Range.ofValue .x x with
    | error first => simp
    | ok xRange => cases Range.ofValue .y y <;> simp
  refine ⟨fun w => ?_, hrefused, fun fault h => ?_⟩
  · rw [ofValues_eq_ok, Range.ofValue_eq_ok, Range.ofValue_eq_ok]
  · cases hfault : fault.isOverflow with
    | false => exact .inl rfl
    | true =>
      rcases (hrefused fault).mp h with hx | ⟨-, hy⟩
      · exact .inr (.inl (hx.overflows hfault))
      · exact .inr (.inr (hy.overflows hfault))

theorem ofValues_iff_text :
    ofValues (.text "19") (.list [.int (-1), .text " 1e0 "]) = .ok ⟨⟨1, 9⟩, ⟨-1, 1⟩⟩ ∧
    ofValues (.list [.int 1]) .null = .error (.notPair .x) := by
  constructor
  · refine ((ofValues_iff _ _).1 _).mpr ⟨⟨⟨_, _, rfl, rfl, rfl⟩, ?_⟩, ⟨⟨_, _, rfl, rfl, rfl⟩, ?_⟩⟩
    · exact ⟨by decide, by decide, by decide⟩
    · exact ⟨by decide, by decide, by decide⟩
  · have hreadable : Range.Readable [.int 1] := (@Range.readable_of_reals [.int 1] [1] rfl).1
    exact ((ofValues_iff _ _).2.1 _).mpr (.inl (.count rfl hreadable (by decide)))

/-- A whole number of 401 digits is no double, and the refusal is about the number, not the axis. -/
theorem ofValues_overflow :
    ofValues (.list [.int (10 ^ 400), .int 1]) (.list [.int (-10), .int 10]) = .error .tooLarge ∧
    RangeFault.tooLarge.isOverflow = true := by
  have hread : (Value.int (10 ^ 400)).toReal = .error .tooLarge := by decide +kernel
  have hx : Range.ofValue .x (.list [.int (10 ^ 400), .int 1]) = .error .tooLarge :=
    (@Range.Refused.tooLarge .x _ [] [.int 1] _ rfl (by decide) (by simp [Range.Readable])
      hread).ofValue_eq
  exact ⟨by rw [ofValues, hx], rfl⟩

end Window
end CurveSketch
