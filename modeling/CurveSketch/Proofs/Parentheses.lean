import CurveSketch.Token

/-!
# CurveSketch.Proofs.Parentheses

Which parentheses belong together. A list of tokens is balanced when it closes as many
parentheses as it opens and none before it is opened; two parentheses match when what is between
them is balanced. A parenthesis is left open exactly if no run of tokens after it closes more than
it opens (`leftOpen_iff`). `Nested` reads a list from the left as balanced pieces between the
parentheses that are still open, which is how a stack sees it; these are the ones that are left open
(`Nested.leftOpens`), and the innermost of them is the last one (`Nested.last_leftOpen`).
-/

namespace CurveSketch
namespace Token

def isOpen (t : Token) : Bool :=
  match t.lexeme with
  | .leftParen => true
  | _ => false

def isClose (t : Token) : Bool :=
  match t.lexeme with
  | .rightParen => true
  | _ => false

def opens (ts : List Token) : Nat :=
  ts.countP isOpen

def closes (ts : List Token) : Nat :=
  ts.countP isClose

/-- As many parentheses are closed as are opened, and none is closed before it is opened. -/
structure Balanced (ts : List Token) : Prop where
  total : opens ts = closes ts
  front : ∀ n, closes (ts.take n) ≤ opens (ts.take n)

/-- The parenthesis opened at `i` is closed at `j`. -/
structure Matches (ts : List Token) (i j : Nat) : Prop where
  opening : ∃ t, ts[i]? = some t ∧ t.isOpen = true
  closing : ∃ t, ts[j]? = some t ∧ t.isClose = true
  lt : i < j
  inside : Balanced ((ts.drop (i + 1)).take (j - (i + 1)))

/-- The parenthesis opened at `i` is not closed. -/
structure LeftOpen (ts : List Token) (i : Nat) : Prop where
  opening : ∃ t, ts[i]? = some t ∧ t.isOpen = true
  unmatched : ∀ j, ¬ Matches ts i j

@[simp] theorem opens_nil : opens [] = 0 := rfl

@[simp] theorem closes_nil : closes [] = 0 := rfl

@[simp] theorem opens_append (ts us : List Token) : opens (ts ++ us) = opens ts + opens us :=
  List.countP_append

@[simp] theorem closes_append (ts us : List Token) : closes (ts ++ us) = closes ts + closes us :=
  List.countP_append

theorem opens_cons (t : Token) (ts : List Token) :
    opens (t :: ts) = opens ts + if t.isOpen then 1 else 0 :=
  List.countP_cons

theorem closes_cons (t : Token) (ts : List Token) :
    closes (t :: ts) = closes ts + if t.isClose then 1 else 0 :=
  List.countP_cons

theorem isClose_of_isOpen {t : Token} (h : t.isOpen = true) : t.isClose = false := by
  obtain ⟨lexeme, position⟩ := t
  cases lexeme <;> first | rfl | cases h

theorem isOpen_of_isClose {t : Token} (h : t.isClose = true) : t.isOpen = false := by
  cases hopen : t.isOpen with
  | false => rfl
  | true => rw [isClose_of_isOpen hopen] at h; cases h

namespace Balanced

variable {ts us : List Token}

theorem nil : Balanced [] :=
  ⟨rfl, fun n => by simp⟩

theorem append (h : Balanced ts) (h' : Balanced us) : Balanced (ts ++ us) := by
  refine ⟨by simp only [opens_append, closes_append, h.total, h'.total], ?_⟩
  intro n
  have hfront := h.front n
  have hback := h'.front (n - ts.length)
  simp only [List.take_append, opens_append, closes_append]
  omega

theorem plain {t : Token} (ht : t.isOpen = false) (ht' : t.isClose = false) : Balanced [t] := by
  refine ⟨by simp [opens, closes, ht, ht'], ?_⟩
  intro n
  cases n <;> simp [opens, closes, ht, ht']

theorem group {t u : Token} (ht : t.isOpen = true) (hu : u.isClose = true) (h : Balanced ts) :
    Balanced (t :: (ts ++ [u])) := by
  have ht' := isClose_of_isOpen ht
  have hu' := isOpen_of_isClose hu
  refine ⟨?_, ?_⟩
  · simp only [opens_cons, closes_cons, opens_append, closes_append, h.total, ht, ht', hu, hu',
      opens_nil, closes_nil, if_true, Bool.false_eq_true, if_false]
  · intro n
    cases n with
    | zero => simp
    | succ n =>
      have hinside := h.front n
      have hlast : closes ([u].take (n - ts.length)) ≤ 1 :=
        Nat.le_trans List.countP_le_length (List.length_take_le' _ _)
      simp only [List.take_succ_cons, List.take_append, opens_cons, closes_cons, opens_append,
        closes_append, ht, ht', if_true, Bool.false_eq_true, if_false]
      omega

end Balanced

/-! ## Matching by counting -/

/-- Either no front of the list closes more than it opens, or the first that does ends with a
parenthesis that closes what was opened before the list. -/
theorem front_or_excess (ts : List Token) (n : Nat) :
    (∀ m ≤ n, closes (ts.take m) ≤ opens (ts.take m)) ∨
      ∃ k t, ts[k]? = some t ∧ t.isClose = true ∧ Balanced (ts.take k) := by
  induction n with
  | zero =>
    left
    intro m hm
    simp [Nat.le_zero.mp hm]
  | succ n ih =>
    rcases ih with hfront | hexcess
    · have hn := hfront n (Nat.le_refl n)
      have htake : ts.take (n + 1) = ts.take n ++ ts[n]?.toList := List.take_add_one
      by_cases hlast : closes (ts.take (n + 1)) ≤ opens (ts.take (n + 1))
      · left
        intro m hm
        rcases Nat.le_succ_iff.mp hm with hm | rfl
        · exact hfront m hm
        · exact hlast
      · right
        rw [htake, opens_append, closes_append] at hlast
        cases ht : ts[n]? with
        | none => simp [ht] at hlast; omega
        | some t =>
          simp only [ht, Option.toList_some, opens_cons, closes_cons] at hlast
          have hclose : t.isClose = true := by
            cases hclose : t.isClose with
            | true => rfl
            | false => simp [hclose] at hlast; omega
          refine ⟨n, t, ht, hclose, ?_, ?_⟩
          · simp [hclose] at hlast
            omega
          · intro m
            rw [List.take_take]
            exact hfront _ (Nat.min_le_right m n)
    · exact .inr hexcess

/-- A parenthesis is left open if what follows never closes more than it opens. -/
theorem leftOpen_iff {ts : List Token} {i : Nat} :
    LeftOpen ts i ↔ (∃ t, ts[i]? = some t ∧ t.isOpen = true) ∧
      ∀ n, closes ((ts.drop (i + 1)).take n) ≤ opens ((ts.drop (i + 1)).take n) := by
  constructor
  · rintro ⟨hopening, hunmatched⟩
    refine ⟨hopening, fun n => ?_⟩
    rcases front_or_excess (ts.drop (i + 1)) n with hfront | ⟨k, t, ht, hclose, hinside⟩
    · exact hfront n (Nat.le_refl n)
    · rw [List.getElem?_drop] at ht
      refine absurd ⟨hopening, ⟨t, ht, hclose⟩, by omega, ?_⟩ (hunmatched (i + 1 + k))
      rwa [Nat.add_sub_cancel_left]
  · rintro ⟨hopening, hfront⟩
    refine ⟨hopening, ?_⟩
    rintro j ⟨-, ⟨t, ht, hclose⟩, hlt, hinside⟩
    -- the matching parenthesis would be one closed too many
    have hlast := hfront (j - (i + 1) + 1)
    have hj : (ts.drop (i + 1))[j - (i + 1)]? = some t := by
      rw [List.getElem?_drop, ← ht]
      congr 1
      omega
    rw [List.take_add_one, hj, opens_append, closes_append, hinside.total] at hlast
    simp only [Option.toList_some, opens_cons, closes_cons, hclose, isOpen_of_isClose hclose,
      if_true, Bool.false_eq_true, if_false, opens_nil, closes_nil] at hlast
    omega

/-! ## What is still open -/

/-- The list is made of balanced pieces between the parentheses opened at these positions, the
innermost one first. -/
inductive Nested : List Token → List Nat → Prop where
  | balanced {ts : List Token} (h : Balanced ts) : Nested ts []
  | opened {ts us : List Token} {groups : List Nat} (t : Token) (ht : t.isOpen = true)
      (outer : Nested ts groups) (inside : Balanced us) :
      Nested (ts ++ t :: us) (t.position :: groups)

namespace Nested

variable {ts us : List Token} {groups : List Nat} {t : Token}

theorem append (h : Nested ts groups) (hus : Balanced us) : Nested (ts ++ us) groups := by
  cases h with
  | balanced h => exact .balanced (h.append hus)
  | opened t ht outer inside =>
    have whole := Nested.opened t ht outer (inside.append hus)
    simpa using whole

theorem opening (h : Nested ts groups) (ht : t.isOpen = true) :
    Nested (ts ++ [t]) (t.position :: groups) :=
  .opened t ht h .nil

theorem closing {position : Nat} (h : Nested ts (position :: groups)) (ht : t.isClose = true) :
    Nested (ts ++ [t]) groups := by
  cases h with
  | opened u hu outer inside =>
    have whole := outer.append (inside.group hu ht)
    simpa using whole

theorem opens_eq (h : Nested ts groups) : opens ts = closes ts + groups.length := by
  induction h with
  | balanced h => exact h.total
  | opened t ht outer inside ih =>
    simp only [opens_append, closes_append, opens_cons, closes_cons, ht, isClose_of_isOpen ht,
      inside.total, ih, List.length_cons, if_true, Bool.false_eq_true, if_false]
    omega

end Nested

theorem Balanced.not_leftOpen {ts : List Token} (h : Balanced ts) (i : Nat) : ¬ LeftOpen ts i := by
  intro hi
  obtain ⟨⟨t, ht, hopen⟩, hfront⟩ := leftOpen_iff.mp hi
  have hbefore := h.front i
  have hafter := hfront (ts.drop (i + 1)).length
  have htotal := h.total
  have hsplit : ts = ts.take i ++ t :: ts.drop (i + 1) := by
    obtain ⟨hlt, rfl⟩ := List.getElem?_eq_some_iff.mp ht
    rw [List.getElem_cons_drop, List.take_append_drop]
  rw [List.take_length] at hafter
  rw [hsplit, opens_append, closes_append, opens_cons, closes_cons, hopen,
    isClose_of_isOpen hopen] at htotal
  simp only [if_true, Bool.false_eq_true, if_false] at htotal
  omega

theorem LeftOpen.lt_length {ts : List Token} {i : Nat} (h : LeftOpen ts i) : i < ts.length := by
  obtain ⟨t, ht, -⟩ := h.opening
  exact (List.getElem?_eq_some_iff.mp ht).1

theorem leftOpen_append_right (ts us : List Token) (k : Nat) :
    LeftOpen (ts ++ us) (ts.length + k) ↔ LeftOpen us k := by
  have hdrop : (ts ++ us).drop (ts.length + k + 1) = us.drop (k + 1) := by
    rw [Nat.add_assoc, List.drop_append, List.drop_eq_nil_of_le (Nat.le_add_right _ _),
      List.nil_append, Nat.add_sub_cancel_left]
  rw [leftOpen_iff, leftOpen_iff, List.getElem?_append_right (Nat.le_add_right _ _),
    Nat.add_sub_cancel_left, hdrop]

theorem leftOpen_append_left {ts us : List Token} {i : Nat} (hi : i < ts.length)
    (hus : ∀ n, closes (us.take n) ≤ opens (us.take n)) :
    LeftOpen (ts ++ us) i ↔ LeftOpen ts i := by
  have hdrop : (ts ++ us).drop (i + 1) = ts.drop (i + 1) ++ us :=
    List.drop_append_of_le_length hi
  rw [leftOpen_iff, leftOpen_iff, List.getElem?_append_left hi, hdrop]
  simp only [List.take_append, opens_append, closes_append]
  refine and_congr_right fun _ => ⟨fun h n => ?_, fun h n => ?_⟩
  · have hfront := h (min n (ts.drop (i + 1)).length)
    rw [Nat.sub_eq_zero_of_le (Nat.min_le_right _ _), List.take_zero,
      ← List.take_eq_take_min] at hfront
    exact hfront
  · exact Nat.add_le_add (h n) (hus _)

theorem Balanced.front_cons {us : List Token} (hus : Balanced us) {t : Token}
    (ht : t.isOpen = true) (n : Nat) : closes ((t :: us).take n) ≤ opens ((t :: us).take n) := by
  cases n with
  | zero => exact Nat.le_refl 0
  | succ n =>
    have hfront := hus.front n
    rw [List.take_succ_cons, opens_cons, closes_cons, ht, isClose_of_isOpen ht]
    exact Nat.le_succ_of_le hfront

/-- A parenthesis in front of a balanced list is left open, and what is left open before it is not
closed behind it. -/
theorem Balanced.leftOpen_append_iff {ts us : List Token} {t : Token} (hus : Balanced us)
    (ht : t.isOpen = true) {i : Nat} :
    LeftOpen (ts ++ t :: us) i ↔ LeftOpen ts i ∨ i = ts.length := by
  rcases Nat.lt_or_ge i ts.length with hi | hi
  · simp only [leftOpen_append_left hi (hus.front_cons ht), Nat.ne_of_lt hi, or_false]
  · obtain ⟨k, rfl⟩ := Nat.exists_eq_add_of_le hi
    have hbefore : ¬LeftOpen ts (ts.length + k) := fun hopen => by
      have := hopen.lt_length
      omega
    simp only [leftOpen_append_right, hbefore, false_or]
    cases k with
    | zero => exact iff_of_true (leftOpen_iff.mpr ⟨⟨t, rfl, ht⟩, hus.front⟩) rfl
    | succ k =>
      refine iff_of_false (fun hopen => hus.not_leftOpen k ?_) (by omega)
      rw [Nat.add_comm] at hopen
      exact (leftOpen_append_right [t] us k).mp hopen

theorem Nested.last_leftOpen {ts : List Token} {position : Nat} {groups : List Nat}
    (h : Nested ts (position :: groups)) :
    ∃ i t, ts[i]? = some t ∧ t.position = position ∧ LeftOpen ts i ∧
      ∀ k, LeftOpen ts k → k ≤ i := by
  cases h with
  | @opened front inside _ t ht outer hinside =>
    refine ⟨front.length, t, by simp, rfl, (hinside.leftOpen_append_iff ht).mpr (.inr rfl), ?_⟩
    intro k hk
    rcases (hinside.leftOpen_append_iff ht).mp hk with hk | rfl
    · exact Nat.le_of_lt hk.lt_length
    · exact Nat.le_refl _

/-- The places of the parentheses that are left open, from left to right. -/
structure LeftOpens (ts : List Token) (places : List Nat) : Prop where
  ordered : places.Pairwise (· < ·)
  mem_iff : ∀ i, i ∈ places ↔ LeftOpen ts i

theorem Nested.leftOpens {ts : List Token} {groups : List Nat} (h : Nested ts groups) :
    ∃ places, LeftOpens ts places ∧
      places.map (fun i => ts[i]?.map Token.position) = groups.reverse.map some := by
  induction h with
  | balanced h => exact ⟨[], ⟨.nil, by simp [h.not_leftOpen]⟩, rfl⟩
  | @opened front inside groups t ht outer hinside ih =>
    obtain ⟨places, ⟨hordered, hmem⟩, hpositions⟩ := ih
    have hlt : ∀ i ∈ places, i < front.length := fun i hi => ((hmem i).mp hi).lt_length
    refine ⟨places ++ [front.length], ⟨?_, fun i => ?_⟩, ?_⟩
    · rw [List.pairwise_append]
      exact ⟨hordered, List.pairwise_singleton _ _, by simpa using hlt⟩
    · rw [hinside.leftOpen_append_iff ht, ← hmem, List.mem_append, List.mem_singleton]
    · have hsame : places.map (fun i => (front ++ t :: inside)[i]?.map Token.position) =
          places.map fun i => front[i]?.map Token.position :=
        List.map_congr_left fun i hi => by rw [List.getElem?_append_left (hlt i hi)]
      rw [List.map_append, hsame, hpositions]
      simp

end Token
end CurveSketch
