import CurveSketch.Proofs.Casing
import CurveSketch.Proofs.Scanning
import CurveSketch.Proofs.Spacing

/-!
# CurveSketch.Proofs.Leniency

A lenient scan is a strict scan of the text with spaces in the place of the characters that are
passed over. `Scan.survey` is the lenient scan with a record of those characters, and
`Scan.blankOut` writes the spaces. A space ends every lexeme and a dropped character stands in none,
so each lexeme of the one text is a lexeme of the other, and no longer one starts at its place
(`lexemeLength_blankOut`).
-/

namespace CurveSketch
namespace Scan

/-- What a lenient scan finds: its tokens, and the places of the characters that it passes over. -/
structure Survey where
  tokens : List Token
  dropped : List Nat

/-- The lenient scan of a text, in the steps of `tokens`. -/
def survey : Nat → Nat → List Char → Survey
  | _, _, [] => ⟨[], []⟩
  | position, skip + 1, _ :: rest => survey (position + 1) skip rest
  | position, 0, c :: rest =>
    if Text.isBlank c then survey (position + 1) 0 rest
    else
      match lexemeLength (c :: rest) with
      | 0 =>
        let others := survey (position + 1) 0 rest
        ⟨others.tokens, position :: others.dropped⟩
      | length + 1 =>
        let others := survey (position + 1) length rest
        ⟨⟨lexeme c (rest.take length), position⟩ :: others.tokens, others.dropped⟩

theorem tokens_lenient (p k : Nat) (cs : List Char) :
    tokens .lenient p k cs = .ok (survey p k cs).tokens := by
  fun_induction survey p k cs with
  | case1 => rfl
  | case2 p k c rest ih => exact ih
  | case3 p c rest hblank ih => simp only [tokens, hblank, if_true, ih]
  | case4 p c rest hblank hzero others ih =>
    simp only [tokens, hblank, hzero, Bool.false_eq_true, if_false, ih, others]
  | case5 p c rest hblank length hlength others ih =>
    simp only [tokens, hblank, hlength, Bool.false_eq_true, if_false, ih, others]

theorem le_of_mem_dropped {p k q : Nat} {cs : List Char} (h : q ∈ (survey p k cs).dropped) :
    p + k ≤ q := by
  fun_induction survey p k cs with
  | case1 => cases h
  | case2 p k c rest ih =>
    have := ih h
    omega
  | case3 p c rest hblank ih =>
    have := ih h
    omega
  | case4 p c rest hblank hzero others ih =>
    rcases List.mem_cons.mp h with rfl | h
    · omega
    · have := ih h
      omega
  | case5 p c rest hblank length hlength others ih =>
    have := ih h
    omega

theorem tokens_lenient_of_strict {p k : Nat} {cs : List Char} {ts : List Token}
    (h : tokens .strict p k cs = .ok ts) : tokens .lenient p k cs = .ok ts := by
  induction cs generalizing p k ts with
  | nil => exact h
  | cons c rest ih =>
    cases k with
    | succ k => exact ih h
    | zero =>
      simp only [tokens] at h ⊢
      split at h
      · rename_i hblank
        rw [if_pos hblank]
        exact ih h
      · rename_i hblank
        rw [if_neg hblank]
        split at h
        · cases h
        · rename_i length hlength
          split at h
          · cases h
          · rename_i us hus
            simp only [ih hus, h]

theorem stuck_of_mem_dropped {s : List Char} {p k q : Nat}
    (h : q ∈ (survey p k (s.drop p)).dropped) : ∃ c, Stuck s q c := by
  generalize hcs : s.drop p = cs at h
  fun_induction survey p k cs with
  | case1 => cases h
  | case2 p k c rest ih => exact ih (by rw [← List.drop_drop, hcs, List.drop_one, List.tail]) h
  | case3 p c rest hblank ih => exact ih (by rw [← List.drop_drop, hcs, List.drop_one, List.tail]) h
  | case4 p c rest hblank hzero others ih =>
    rcases List.mem_cons.mp h with rfl | h
    · refine ⟨c, ?_, by simpa using hblank, ?_⟩
      · rw [← List.head?_drop, hcs, List.head?_cons]
      · rw [hcs]
        exact lexemeLength_eq_zero_iff.mp hzero
    · exact ih (by rw [← List.drop_drop, hcs, List.drop_one, List.tail]) h
  | case5 p c rest hblank length hlength others ih =>
    exact ih (by rw [← List.drop_drop, hcs, List.drop_one, List.tail]) h

/-! ### Spaces in place of characters -/

/-- A text that starts at `position`, with a space at each of the places. -/
def blankOut (places : List Nat) : Nat → List Char → List Char
  | _, [] => []
  | position, c :: rest =>
    (if position ∈ places then ' ' else c) :: blankOut places (position + 1) rest

theorem length_blankOut (places : List Nat) (p : Nat) (cs : List Char) :
    (blankOut places p cs).length = cs.length := by
  induction cs generalizing p with
  | nil => rfl
  | cons c rest ih => rw [blankOut, List.length_cons, List.length_cons, ih]

theorem getElem?_blankOut (places : List Nat) (p : Nat) (cs : List Char) (i : Nat) :
    (blankOut places p cs)[i]? = cs[i]?.map fun c => if p + i ∈ places then ' ' else c := by
  induction cs generalizing p i with
  | nil => rfl
  | cons c rest ih =>
    cases i with
    | zero => rfl
    | succ i => simp only [blankOut, List.getElem?_cons_succ, ih, Nat.add_right_comm, Nat.add_assoc]

theorem blankOut_cons_of_lt {places : List Nat} {q p : Nat} (hq : q < p) (cs : List Char) :
    blankOut (q :: places) p cs = blankOut places p cs := by
  induction cs generalizing p with
  | nil => rfl
  | cons c rest ih =>
    have hne : p ≠ q := by omega
    simp only [blankOut, List.mem_cons, hne, false_or, ih (Nat.lt_succ_of_lt hq)]

theorem take_blankOut {places : List Nat} {p n : Nat} (h : ∀ q ∈ places, p + n ≤ q)
    (cs : List Char) : (blankOut places p cs).take n = cs.take n := by
  induction cs generalizing p n with
  | nil => rfl
  | cons c rest ih =>
    cases n with
    | zero => rfl
    | succ n =>
      have hp : p ∉ places := by
        intro hp
        have := h p hp
        omega
      have hrest : ∀ q ∈ places, p + 1 + n ≤ q := by
        intro q hq
        have := h q hq
        omega
      rw [blankOut, if_neg hp, List.take_succ_cons, List.take_succ_cons, ih hrest]

/-- What begins the text with the spaces and has none of them began the text before. -/
theorem prefix_of_blankOut {places : List Nat} {p : Nat} {w cs : List Char}
    (hw : ∀ c ∈ w, Text.isBlank c = false) (hp : w <+: blankOut places p cs) : w <+: cs := by
  induction w generalizing p cs with
  | nil => exact List.nil_prefix
  | cons d w ih =>
    cases cs with
    | nil => exact absurd (List.prefix_nil.mp hp) (List.cons_ne_nil d w)
    | cons c rest =>
      obtain ⟨hd, hp⟩ := List.cons_prefix_cons.mp hp
      split at hd
      · have hblank := hw d (by simp)
        rw [hd] at hblank
        cases hblank
      · rw [hd]
        exact List.cons_prefix_cons.mpr ⟨rfl, ih (fun e he => hw e (by simp [he])) hp⟩

theorem lexemeLength_blankOut {places : List Nat} {p : Nat} {cs : List Char}
    (h : ∀ q ∈ places, p + lexemeLength cs ≤ q) :
    lexemeLength (blankOut places p cs) = lexemeLength cs := by
  refine Nat.le_antisymm ?_ ?_
  · by_cases hzero : lexemeLength (blankOut places p cs) = 0
    · omega
    · obtain ⟨w, hp, hw, hlength⟩ := exists_lexeme hzero
      rw [← hlength]
      exact lexeme_length_le hw (prefix_of_blankOut (fun _ => hw.not_isBlank) hp)
  · by_cases hzero : lexemeLength cs = 0
    · omega
    · obtain ⟨w, hp, hw, hlength⟩ := exists_lexeme hzero
      have hstarts : w <+: blankOut places p cs := by
        rw [List.prefix_iff_eq_take.mp hp, hlength, ← take_blankOut h cs]
        exact List.take_prefix _ _
      rw [← hlength]
      exact lexeme_length_le hw hstarts

theorem blankOut_dropped_cons (p k : Nat) (c : Char) (rest : List Char) :
    blankOut (survey (p + 1) k rest).dropped p (c :: rest) =
      c :: blankOut (survey (p + 1) k rest).dropped (p + 1) rest := by
  have hp : p ∉ (survey (p + 1) k rest).dropped := by
    intro hp
    have := le_of_mem_dropped hp
    omega
  rw [blankOut, if_neg hp]

/-- With spaces in place of what the lenient scan passes over, the strict scan reads its tokens. -/
theorem tokens_blankOut (p k : Nat) (cs : List Char) :
    tokens .strict p k (blankOut (survey p k cs).dropped p cs) = .ok (survey p k cs).tokens := by
  fun_induction survey p k cs with
  | case1 => rfl
  | case2 p k c rest ih =>
    rw [blankOut_dropped_cons]
    exact ih
  | case3 p c rest hblank ih =>
    rw [blankOut_dropped_cons, tokens, if_pos hblank]
    exact ih
  | case4 p c rest hblank hzero others ih =>
    have hspace : Text.isBlank ' ' = true := rfl
    rw [blankOut, if_pos (List.mem_cons_self ..), blankOut_cons_of_lt (Nat.lt_succ_self p), tokens,
      if_pos hspace]
    exact ih
  | case5 p c rest hblank length hlength others ih =>
    have hbehind : ∀ q ∈ (survey (p + 1) length rest).dropped, p + 1 + length ≤ q :=
      fun q hq => le_of_mem_dropped hq
    have hsame : lexemeLength (blankOut (survey (p + 1) length rest).dropped p (c :: rest)) =
        length + 1 := by
      rw [lexemeLength_blankOut, hlength]
      intro q hq
      have := hbehind q hq
      omega
    rw [blankOut_dropped_cons] at hsame
    rw [blankOut_dropped_cons, tokens, if_neg hblank, hsame]
    simp only [ih, take_blankOut hbehind, others]

theorem mem_dropped_iff {s : List Char} {placed : List Placed}
    (h : Partition (blankOut (survey 0 0 s).dropped 0 s) 0 s.length placed) {q : Nat} {c : Char}
    (hc : s[q]? = some c) : q ∈ (survey 0 0 s).dropped ↔
      Text.isBlank c = false ∧ ∀ a ∈ placed, q < a.start ∨ a.stop ≤ q := by
  have hplace := getElem?_blankOut (survey 0 0 s).dropped 0 s q
  rw [hc, Nat.zero_add, Option.map_some] at hplace
  constructor
  · intro hq
    obtain ⟨d, hstuck⟩ := stuck_of_mem_dropped (s := s) (p := 0) hq
    obtain rfl : c = d := Option.some.inj (hc.symm.trans hstuck.char)
    rw [if_pos hq] at hplace
    refine ⟨hstuck.notBlank, ?_⟩
    intro a ha
    by_contra hinside
    have hmem := Placed.mem_slice hplace (a := a) (by omega) (by omega)
    have hblank := (h.covers a ha).longest.lexeme.not_isBlank hmem
    cases hblank
  · rintro ⟨hblank, hout⟩
    by_contra hq
    rw [if_neg hq] at hplace
    obtain ⟨hlength, -⟩ := List.getElem?_eq_some_iff.mp hc
    obtain ⟨d, hd, hdblank⟩ := h.blank q (Nat.zero_le q) hlength hout
    rw [hplace] at hd
    cases hd
    rw [hblank] at hdblank
    cases hdblank

theorem Partition.lower_eq {s : List Char} {placed : List Placed}
    (h : Partition s 0 s.length placed) : Text.lower s = s :=
  Text.lower_of_settled fun c hc => (h.accepted c hc).settled

end Scan

/-- Lenient tokenizing reads the tokens that strict tokenizing reads when spaces stand in place of
the characters that are passed over. Those are neither blanks nor starts of lexemes, none of them
stands in the slice of a token, and every other character outside of the slices is blank. What
strict tokenizing reads at once, lenient tokenizing reads in the same way. -/
theorem tokenize_lenient (limit : Int) (text : String) (hlimit : text.toList.length ≤ limit) :
    let s := Text.lower text.toList
    let dropped := (Scan.survey 0 0 s).dropped
    let blanked := Scan.blankOut dropped 0 s
    (∃ ts, tokenize .lenient limit text = .ok ts ∧
      (∀ limit' : Int, blanked.length ≤ limit' →
        tokenize .strict limit' (String.ofList blanked) = .ok ts) ∧
      ∃ placed, placed.map Scan.Placed.token = ts ∧
        Scan.Partition blanked 0 blanked.length placed ∧
        ∀ q c, s[q]? = some c → (q ∈ dropped ↔
          Text.isBlank c = false ∧ ∀ a ∈ placed, q < a.start ∨ a.stop ≤ q)) ∧
    (∀ q ∈ dropped, ∃ c, Scan.Stuck s q c) ∧
    (∀ ts, tokenize .strict limit text = .ok ts → tokenize .lenient limit text = .ok ts) := by
  intro s dropped blanked
  have htokens (mode : LexMode) : tokenize mode limit text = Scan.tokens mode 0 0 s := by
    rw [tokenize, if_neg (by omega)]
  have hstrict : Scan.tokens .strict 0 0 blanked = .ok (Scan.survey 0 0 s).tokens :=
    Scan.tokens_blankOut 0 0 s
  have hlength : blanked.length = s.length := Scan.length_blankOut dropped 0 s
  have hanswer := Scan.tokens_answer blanked 0 (Nat.zero_le _)
  rw [List.drop_zero, hstrict] at hanswer
  obtain ⟨placed, hplaced, hpartition⟩ := hanswer
  refine ⟨⟨(Scan.survey 0 0 s).tokens, ?_, ?_, ?_⟩, ?_, ?_⟩
  · rw [htokens]
    exact Scan.tokens_lenient 0 0 s
  · intro limit' hlimit'
    rw [tokenize, String.toList_ofList, if_neg (by omega), hpartition.lower_eq]
    exact hstrict
  · refine ⟨placed, hplaced, hpartition, ?_⟩
    intro q c hc
    rw [hlength] at hpartition
    exact Scan.mem_dropped_iff hpartition hc
  · intro q hq
    exact Scan.stuck_of_mem_dropped (p := 0) hq
  · intro ts hts
    rw [htokens] at hts ⊢
    exact Scan.tokens_lenient_of_strict hts

/-- The last point of `1.#.5.` is passed over with the sign, the second one begins a numeral. -/
theorem tokenize_lenient_points :
    ∃ ts, tokenize .lenient 8 "1.#.5." = .ok ts ∧ tokenize .strict 8 "1. .5 " = .ok ts ∧
      ts.map Token.position = [0, 3] := by
  obtain ⟨⟨ts, hlenient, hstrict, -⟩, -, -⟩ := tokenize_lenient 8 "1.#.5." (by decide)
  have hblanked : String.ofList (Scan.blankOut
      (Scan.survey 0 0 (Text.lower "1.#.5.".toList)).dropped 0
      (Text.lower "1.#.5.".toList)) = "1. .5 " := by
    rfl
  have hread := hstrict 8 (by decide)
  rw [hblanked] at hread
  refine ⟨ts, hlenient, hread, ?_⟩
  have hpositions : (Scan.survey 0 0 (Text.lower "1.#.5.".toList)).tokens.map Token.position =
      [0, 3] := by
    rfl
  have htokens : tokenize .lenient 8 "1.#.5." =
      .ok (Scan.survey 0 0 (Text.lower "1.#.5.".toList)).tokens := by
    rfl
  rw [htokens] at hlenient
  cases hlenient
  exact hpositions

end CurveSketch
