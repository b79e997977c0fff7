import CurveSketch.Proofs.Lexemes

/-!
# CurveSketch.Proofs.Scanning

Strict scanning cuts a text into its longest lexemes. The slices of the tokens follow each other
without overlap, each is the longest lexeme where it starts, and only blanks are left between them
(`Partition`). Scanning fails exactly where such a cutting comes to a character that is neither
blank nor the start of a lexeme, and reports that character.
-/

namespace CurveSketch
namespace Scan

/-- A token with the place where its slice of the text ends. -/
structure Placed where
  token : Token
  stop : Nat

namespace Placed

def start (a : Placed) : Nat :=
  a.token.position

def slice (s : List Char) (a : Placed) : List Char :=
  (s.drop a.start).take (a.stop - a.start)

/-- The slice lies in the text, it is the longest lexeme at its start, and the token is what it
is read as. -/
structure Covers (s : List Char) (a : Placed) : Prop where
  nonempty : a.start < a.stop
  inside : a.stop ≤ s.length
  longest : Longest (s.drop a.start) (a.slice s)
  spells : Spells (a.slice s) a.token.lexeme

end Placed

/-- The characters of `s` from `start` to `stop` are the slices of the placed tokens, one after
the other, and blanks outside of them. -/
structure Partition (s : List Char) (start stop : Nat) (placed : List Placed) : Prop where
  le : start ≤ stop
  ordered : placed.Pairwise fun a b => a.stop ≤ b.start
  within : ∀ a ∈ placed, start ≤ a.start ∧ a.stop ≤ stop
  covers : ∀ a ∈ placed, a.Covers s
  blank : ∀ i, start ≤ i → i < stop → (∀ a ∈ placed, i < a.start ∨ a.stop ≤ i) →
    ∃ c ∈ s[i]?, Text.isBlank c = true

/-- The character at `p` is neither blank nor the start of a lexeme. -/
structure Stuck (s : List Char) (p : Nat) (c : Char) : Prop where
  char : s[p]? = some c
  notBlank : Text.isBlank c = false
  noLexeme : ∀ w, w <+: s.drop p → ¬ IsLexeme w

/-- Cutting the text from its beginning comes to `p` and gets no further. -/
def StopsAt (s : List Char) (p : Nat) (c : Char) : Prop :=
  (∃ placed, Partition s 0 p placed) ∧ Stuck s p c

/-! ### Partitions from the left -/

theorem Partition.nil (s : List Char) (p : Nat) : Partition s p p [] where
  le := le_rfl
  ordered := .nil
  within := by simp
  covers := by simp
  blank := by omega

theorem Partition.skip {s : List Char} {p q : Nat} {c : Char} {placed : List Placed}
    (hc : s[p]? = some c) (hblank : Text.isBlank c = true) (h : Partition s (p + 1) q placed) :
    Partition s p q placed where
  le := by have := h.le; omega
  ordered := h.ordered
  within a ha := ⟨by have := (h.within a ha).1; omega, (h.within a ha).2⟩
  covers := h.covers
  blank i hi hiq hout := by
    by_cases hip : i = p
    · exact ⟨c, hip ▸ hc, hblank⟩
    · exact h.blank i (by omega) hiq hout

theorem Partition.cons {s : List Char} {q : Nat} {a : Placed} {placed : List Placed}
    (ha : a.Covers s) (h : Partition s a.stop q placed) :
    Partition s a.start q (a :: placed) where
  le := ha.nonempty.le.trans h.le
  ordered := .cons (fun b hb => (h.within b hb).1) h.ordered
  within b hb := by
    have := ha.nonempty
    rcases List.mem_cons.mp hb with rfl | hb
    · exact ⟨le_rfl, h.le⟩
    · have := h.within b hb
      omega
  covers b hb := by
    rcases List.mem_cons.mp hb with rfl | hb
    · exact ha
    · exact h.covers b hb
  blank i hi hiq hout := by
    have := hout a (by simp)
    exact h.blank i (by omega) hiq fun b hb => hout b (by simp [hb])

theorem Partition.cases {s : List Char} {p q : Nat} {placed : List Placed}
    (h : Partition s p q placed) (hpq : p < q) :
    ((∃ c ∈ s[p]?, Text.isBlank c = true) ∧ Partition s (p + 1) q placed) ∨
      ∃ (a : Placed) (rest : List Placed), a.start = p ∧ a.Covers s ∧
        Partition s a.stop q rest := by
  by_cases hout : ∀ a ∈ placed, p < a.start ∨ a.stop ≤ p
  · left
    refine ⟨h.blank p le_rfl hpq hout, hpq, h.ordered, fun a ha => ?_, h.covers, fun i hi => ?_⟩
    · have := (h.covers a ha).nonempty
      have := h.within a ha
      have := hout a ha
      omega
    · exact h.blank i (by omega)
  · right
    simp only [not_forall, not_or, not_lt, not_le] at hout
    obtain ⟨a, ha, hstart, hstop⟩ := hout
    cases placed with
    | nil => cases ha
    | cons b rest =>
      obtain ⟨hfollow, hordered⟩ := List.pairwise_cons.mp h.ordered
      have hb := h.within b (by simp)
      have hcovers := h.covers b (by simp)
      have hnonempty := hcovers.nonempty
      -- the slice over `p` is the first one, as every other starts behind the end of that
      have hfirst : b.start = p := by
        rcases List.mem_cons.mp ha with rfl | ha
        · omega
        · have := hfollow a ha
          omega
      refine ⟨b, rest, hfirst, hcovers, hb.2, hordered, fun a ha => ?_, fun a ha => ?_,
        fun i hi hiq hout => ?_⟩
      · exact ⟨hfollow a ha, (h.within a (by simp [ha])).2⟩
      · exact h.covers a (by simp [ha])
      · refine h.blank i (by omega) hiq fun a ha => ?_
        rcases List.mem_cons.mp ha with rfl | ha
        · exact .inr hi
        · exact hout a ha

theorem Partition.increasing {s : List Char} {p q : Nat} {placed : List Placed}
    (h : Partition s p q placed) :
    (placed.map Placed.token).Pairwise fun a b => a.position < b.position := by
  rw [List.pairwise_map]
  refine h.ordered.imp_of_mem fun {a b} ha _ hab => ?_
  have := (h.covers a ha).nonempty
  exact Nat.lt_of_lt_of_le this hab

/-! ### One step of the scanner -/

theorem tokens_skip (mode : LexMode) (p k : Nat) (cs : List Char) :
    tokens mode p k cs = tokens mode (p + k) 0 (cs.drop k) := by
  induction cs generalizing p k with
  | nil => simp [tokens]
  | cons c rest ih =>
    cases k with
    | zero => rfl
    | succ k =>
      rw [tokens, ih, List.drop_succ_cons, Nat.add_right_comm, Nat.add_assoc]

variable {s : List Char} {p : Nat} {c : Char}

theorem drop_eq_cons (hc : s[p]? = some c) : s.drop p = c :: s.drop (p + 1) := by
  obtain ⟨hp, rfl⟩ := List.getElem?_eq_some_iff.mp hc
  exact List.drop_eq_getElem_cons hp

theorem tokens_blank (hc : s[p]? = some c) (hblank : Text.isBlank c = true) :
    tokens .strict p 0 (s.drop p) = tokens .strict (p + 1) 0 (s.drop (p + 1)) := by
  rw [drop_eq_cons hc, tokens, if_pos hblank]

theorem tokens_stuck (h : Stuck s p c) :
    tokens .strict p 0 (s.drop p) = .error (.unexpected c p) := by
  have hzero := lexemeLength_eq_zero_iff.mpr h.noLexeme
  rw [drop_eq_cons h.char] at hzero ⊢
  simp [tokens, h.notBlank, hzero]

def placedAt (s : List Char) (p : Nat) (c : Char) (more : Nat) : Placed where
  token := ⟨lexeme c ((s.drop (p + 1)).take more), p⟩
  stop := p + 1 + more

theorem tokens_lexeme {more : Nat} (hc : s[p]? = some c) (hblank : Text.isBlank c = false)
    (hlength : lexemeLength (s.drop p) = more + 1) :
    tokens .strict p 0 (s.drop p) =
      (tokens .strict (p + 1 + more) 0 (s.drop (p + 1 + more))).map
        ((placedAt s p c more).token :: ·) := by
  rw [drop_eq_cons hc] at hlength ⊢
  simp only [tokens, hblank, hlength, tokens_skip _ _ more, List.drop_drop]
  cases tokens .strict (p + 1 + more) 0 (s.drop (p + 1 + more)) <;> rfl

theorem placedAt_covers {more : Nat} (hc : s[p]? = some c)
    (hlength : lexemeLength (s.drop p) = more + 1) : (placedAt s p c more).Covers s := by
  have hslice : (placedAt s p c more).slice s = c :: (s.drop (p + 1)).take more := by
    have : p + 1 + more - p = more + 1 := by omega
    simp only [Placed.slice, Placed.start, placedAt, this, drop_eq_cons hc, List.take_succ_cons]
  have hlongest : Longest (s.drop p) (c :: (s.drop (p + 1)).take more) := by
    rw [longest_iff, hlength]
    exact ⟨by omega, by rw [drop_eq_cons hc, List.take_succ_cons]⟩
  refine ⟨?_, ?_, ?_, ?_⟩
  · show p < p + 1 + more
    omega
  · have := lexemeLength_le (s.drop p)
    rw [List.length_drop] at this
    show p + 1 + more ≤ s.length
    omega
  · rw [hslice]
    exact hlongest
  · rw [hslice]
    exact spells_lexeme hlongest.lexeme

/-! ### The whole scan -/

/-- What the scanner may answer from `p` on: the tokens of a partition of the rest, or the
character at which a partition gets stuck. -/
def Answer (s : List Char) (p : Nat) : Except LexError (List Token) → Prop
  | .ok ts => ∃ placed, placed.map Placed.token = ts ∧ Partition s p s.length placed
  | .error e => ∃ c q placed, e = .unexpected c q ∧ Partition s p q placed ∧ Stuck s q c

theorem Answer.skip {result : Except LexError (List Token)} (hc : s[p]? = some c)
    (hblank : Text.isBlank c = true) (h : Answer s (p + 1) result) : Answer s p result := by
  cases result with
  | ok ts =>
    obtain ⟨placed, htokens, hpartition⟩ := h
    exact ⟨placed, htokens, hpartition.skip hc hblank⟩
  | error e =>
    obtain ⟨d, q, placed, he, hpartition, hstuck⟩ := h
    exact ⟨d, q, placed, he, hpartition.skip hc hblank, hstuck⟩

theorem Answer.cons {a : Placed} {result : Except LexError (List Token)} (ha : a.Covers s)
    (h : Answer s a.stop result) : Answer s a.start (result.map (a.token :: ·)) := by
  cases result with
  | ok ts =>
    obtain ⟨placed, htokens, hpartition⟩ := h
    exact ⟨a :: placed, by rw [List.map_cons, htokens], .cons ha hpartition⟩
  | error e =>
    obtain ⟨d, q, placed, he, hpartition, hstuck⟩ := h
    exact ⟨d, q, a :: placed, he, .cons ha hpartition, hstuck⟩

theorem tokens_answer (s : List Char) (p : Nat) (hp : p ≤ s.length) :
    Answer s p (tokens .strict p 0 (s.drop p)) := by
  induction hn : s.length - p using Nat.strong_induction_on generalizing p with
  | _ n ih =>
    by_cases hend : p = s.length
    · rw [hend, List.drop_length]
      exact ⟨[], rfl, .nil s s.length⟩
    · obtain ⟨c, hc⟩ : ∃ c, s[p]? = some c := ⟨s[p], List.getElem?_eq_getElem (by omega)⟩
      cases hblank : Text.isBlank c with
      | true =>
        rw [tokens_blank hc hblank]
        exact .skip hc hblank (ih _ (by omega) (p + 1) (by omega) rfl)
      | false =>
        cases hlength : lexemeLength (s.drop p) with
        | zero =>
          have hstuck : Stuck s p c := ⟨hc, hblank, lexemeLength_eq_zero_iff.mp hlength⟩
          rw [tokens_stuck hstuck]
          exact ⟨c, p, [], rfl, .nil s p, hstuck⟩
        | succ more =>
          have hcovers := placedAt_covers hc hlength
          rw [tokens_lexeme hc hblank hlength]
          exact .cons hcovers (ih _ (by omega) (p + 1 + more) hcovers.inside rfl)

theorem Placed.Covers.lexemeLength_eq {a : Placed} (h : a.Covers s) :
    lexemeLength (s.drop a.start) = a.stop - a.start := by
  obtain ⟨-, hslice⟩ := longest_iff.mp h.longest
  have hlength := congrArg List.length hslice
  have hle := lexemeLength_le (s.drop a.start)
  have := h.inside
  simp only [Placed.slice, List.length_take, List.length_drop] at hlength hle
  omega

theorem Placed.Covers.first {a : Placed} (h : a.Covers s) :
    ∃ c, s[a.start]? = some c ∧ Text.isBlank c = false := by
  obtain ⟨c, tail, hslice, hblank, -⟩ := h.longest.lexeme.first
  refine ⟨c, ?_, hblank⟩
  have hhead := congrArg List.head? hslice
  have := h.nonempty
  rw [Placed.slice, List.head?_take, if_neg (by omega), List.head?_drop] at hhead
  exact hhead

theorem Partition.tokens_error {q : Nat} {placed : List Placed} {e : LexError}
    (h : Partition s p q placed) (he : tokens .strict q 0 (s.drop q) = .error e) :
    tokens .strict p 0 (s.drop p) = .error e := by
  induction hn : q - p using Nat.strong_induction_on generalizing p placed with
  | _ n ih =>
    have hle := h.le
    by_cases hend : p = q
    · rw [hend]
      exact he
    · rcases h.cases (by omega) with ⟨⟨c, hc, hblank⟩, hrest⟩ | ⟨a, rest, rfl, ha, hrest⟩
      · rw [tokens_blank hc hblank]
        exact ih _ (by omega) hrest rfl
      · have hnonempty := ha.nonempty
        obtain ⟨c, hc, hblank⟩ := ha.first
        have hlength : lexemeLength (s.drop a.start) = (a.stop - a.start - 1) + 1 := by
          rw [ha.lexemeLength_eq]
          omega
        have hstop : a.start + 1 + (a.stop - a.start - 1) = a.stop := by omega
        rw [tokens_lexeme hc hblank hlength, hstop, ih _ (by omega) hrest rfl]
        rfl

/-- The characters that begin lexemes: digits, letters, symbols, and a point before a digit. -/
theorem exists_lexeme_iff {rest : List Char} :
    (∃ w, w <+: c :: rest ∧ IsLexeme w) ↔
      c.isDigit = true ∨ isLetter c = true ∨ isSymbol c = true ∨
        c = '.' ∧ ∃ d ∈ rest.head?, d.isDigit = true := by
  constructor
  · rintro ⟨w, hp, hw⟩
    cases hw with
    | numeral h =>
      cases h with
      | whole digits some =>
        obtain ⟨d, tail, rfl⟩ := List.exists_cons_of_ne_nil some
        rw [← (List.cons_prefix_cons.mp hp).1]
        exact .inl (digits d (by simp))
      | @point ds fs digits fraction some =>
        cases ds with
        | cons d tail =>
          rw [← (List.cons_prefix_cons.mp hp).1]
          exact .inl (digits d (by simp))
        | nil =>
          obtain ⟨d, tail, rfl⟩ := List.exists_cons_of_ne_nil (some.resolve_left (by simp))
          obtain ⟨rfl, ⟨more, rfl⟩⟩ := List.cons_prefix_cons.mp hp
          exact .inr (.inr (.inr ⟨rfl, d, rfl, fraction d (by simp)⟩))
    | word h =>
      obtain ⟨d, tail, rfl, hd⟩ := h.first
      rw [← (List.cons_prefix_cons.mp hp).1]
      exact .inr (.inl hd)
    | symbol h eq =>
      rw [eq] at hp
      rw [← (List.cons_prefix_cons.mp hp).1]
      exact .inr (.inr (.inl h))
  · rintro (hdigit | hletter | hsymbol | ⟨rfl, d, hd, hdigit⟩)
    · exact ⟨[c], ⟨rest, rfl⟩, .numeral (.whole (by simpa [AllDigits] using hdigit) (by simp))⟩
    · exact ⟨[c], ⟨rest, rfl⟩, .word ⟨by simp, by simpa using hletter⟩⟩
    · exact ⟨[c], ⟨rest, rfl⟩, .symbol hsymbol rfl⟩
    · obtain ⟨tail, rfl⟩ : ∃ tail, rest = d :: tail := by
        cases rest with
        | nil => cases hd
        | cons e tail => exact ⟨tail, by cases hd; rfl⟩
      refine ⟨[] ++ '.' :: [d], ⟨tail, rfl⟩, .numeral (.point ?_ ?_ (by simp))⟩
      · simp [AllDigits]
      · simpa [AllDigits] using hdigit

theorem stuck_iff : Stuck s p c ↔
    s[p]? = some c ∧ Text.isBlank c = false ∧ c.isDigit = false ∧ isLetter c = false ∧
      isSymbol c = false ∧ (c = '.' → ∀ d ∈ s[p + 1]?, d.isDigit = false) := by
  have hstarts (hc : s[p]? = some c) :
      (∀ w, w <+: s.drop p → ¬ IsLexeme w) ↔
        c.isDigit = false ∧ isLetter c = false ∧ isSymbol c = false ∧
          (c = '.' → ∀ d ∈ s[p + 1]?, d.isDigit = false) := by
    have := not_congr (@exists_lexeme_iff c (s.drop (p + 1)))
    rw [← drop_eq_cons hc, List.head?_drop] at this
    simpa only [not_exists, not_and, not_or, Bool.not_eq_true] using this
  constructor
  · rintro ⟨hc, hblank, hnone⟩
    exact ⟨hc, hblank, (hstarts hc).mp hnone⟩
  · rintro ⟨hc, hblank, hnone⟩
    exact ⟨hc, hblank, (hstarts hc).mpr hnone⟩

end Scan

/-- Strict tokenizing of a text within the length limit cuts its lower case into longest lexemes
and blanks, and fails exactly at the first character where that is impossible. -/
theorem tokenize_strict (limit : Int) (text : String) (hlimit : text.toList.length ≤ limit) :
    let s := Text.lower text.toList
    (∀ ts, tokenize .strict limit text = .ok ts →
      ts.Pairwise (fun a b => a.position < b.position) ∧
      ∃ placed, placed.map Scan.Placed.token = ts ∧ Scan.Partition s 0 s.length placed) ∧
    (∀ e, tokenize .strict limit text = .error e ↔
      ∃ c p, e = .unexpected c p ∧ Scan.StopsAt s p c) ∧
    (∀ c p, Scan.Stuck s p c ↔
      s[p]? = some c ∧ Text.isBlank c = false ∧ c.isDigit = false ∧ Scan.isLetter c = false ∧
        Scan.isSymbol c = false ∧ (c = '.' → ∀ d ∈ s[p + 1]?, d.isDigit = false)) := by
  intro s
  have htokens : tokenize .strict limit text = Scan.tokens .strict 0 0 (s.drop 0) := by
    rw [tokenize, if_neg (by omega)]
    rfl
  have hanswer := Scan.tokens_answer s 0 (Nat.zero_le _)
  rw [← htokens] at hanswer
  refine ⟨fun ts hts => ?_, fun e => ⟨fun he => ?_, ?_⟩, fun c p => Scan.stuck_iff⟩
  · rw [hts] at hanswer
    obtain ⟨placed, rfl, hpartition⟩ := hanswer
    exact ⟨hpartition.increasing, placed, rfl, hpartition⟩
  · rw [he] at hanswer
    obtain ⟨c, p, placed, he, hpartition, hstuck⟩ := hanswer
    exact ⟨c, p, he, ⟨placed, hpartition⟩, hstuck⟩
  · rintro ⟨c, p, rfl, ⟨placed, hpartition⟩, hstuck⟩
    rw [htokens]
    exact hpartition.tokens_error (Scan.tokens_stuck hstuck)

/-- The second point of `1..5` begins a numeral, a third one begins nothing. -/
theorem tokenize_strict_points :
    (∃ placed, placed.map Scan.Placed.start = [0, 2] ∧
      Scan.Partition (Text.lower "1..5".toList) 0 4 placed) ∧
    Scan.StopsAt (Text.lower "1..5.".toList) 4 '.' := by
  constructor
  · have hread : tokenize .strict 8 "1..5" = .ok [
        ⟨.number (Scan.numeralValue ['1', '.']), 0⟩,
        ⟨.number (Scan.numeralValue ['.', '5']), 2⟩] := by
      rfl
    obtain ⟨-, placed, htokens, hpartition⟩ := (tokenize_strict 8 "1..5" (by decide)).1 _ hread
    refine ⟨placed, ?_, hpartition⟩
    have := congrArg (List.map Token.position) htokens
    rwa [List.map_map] at this
  · have hread : tokenize .strict 8 "1..5." = .error (.unexpected '.' 4) := by
      rfl
    obtain ⟨c, p, he, hstops⟩ := ((tokenize_strict 8 "1..5." (by decide)).2.1 _).mp hread
    cases he
    exact hstops

end CurveSketch
