import CurveSketch.Proofs.Scanning
import CurveSketch.Proofs.Slices

/-!
# CurveSketch.Proofs.Spacing

A text that strict scanning accepts has blanks and characters of lexemes only
(`Partition.accepted`). A blank always ends a lexeme, so a text is scanned on both sides of a blank
as if the other side were not there (`tokens_append_gap`). Lexemes that are set apart by spaces are
therefore scanned to one token each (`tokens_intercalate`); and words that are scanned to no more
tokens than there are words are lexemes themselves (`reads_of_tokens`).
-/

namespace CurveSketch
namespace Scan

/-! ### Lexemes and blanks -/

theorem Placed.mem_slice {a : Placed} {s : List Char} {q : Nat} {c : Char} (hc : s[q]? = some c)
    (hstart : a.start ≤ q) (hstop : q < a.stop) : c ∈ a.slice s := by
  refine List.mem_iff_getElem?.mpr ⟨q - a.start, ?_⟩
  rw [Placed.slice, List.getElem?_take_of_lt (by omega), List.getElem?_drop,
    Nat.add_sub_of_le hstart, hc]

theorem Partition.accepted {s : List Char} {placed : List Placed}
    (h : Partition s 0 s.length placed) : ∀ c ∈ s, Accepted c := by
  intro c hc
  obtain ⟨q, hq, rfl⟩ := List.mem_iff_getElem.mp hc
  have hplace := List.getElem?_eq_getElem hq
  by_cases hout : ∀ a ∈ placed, q < a.start ∨ a.stop ≤ q
  · obtain ⟨d, hd, hblank⟩ := h.blank q (Nat.zero_le q) hq hout
    rw [hplace] at hd
    cases hd
    exact .inl hblank
  · simp only [not_forall, not_or, Nat.not_lt, Nat.not_le] at hout
    obtain ⟨a, ha, hstart, hstop⟩ := hout
    exact .inr ((h.covers a ha).longest.lexeme.all _ (Placed.mem_slice hplace hstart hstop))

/-! ### Texts with a blank in them -/

section Gap

variable {b : Char} (hb : Text.isBlank b = true)

include hb

theorem IsLexeme.prefix_of_gap {w cs rest : List Char} (hw : IsLexeme w)
    (hp : w <+: cs ++ b :: rest) : w <+: cs := by
  rcases List.prefix_or_prefix_of_prefix hp (List.prefix_append cs (b :: rest)) with h | h
  · exact h
  · obtain ⟨tail, rfl⟩ := h
    rw [List.prefix_append_right_inj] at hp
    cases tail with
    | nil => rw [List.append_nil]
    | cons d more =>
      rw [(List.cons_prefix_cons.mp hp).1] at hw
      have := hw.not_isBlank (c := b) (by simp)
      rw [hb] at this
      cases this

theorem lexemeLength_append_gap (cs rest : List Char) :
    lexemeLength (cs ++ b :: rest) = lexemeLength cs := by
  refine Nat.le_antisymm ?_ ?_
  · by_cases h : lexemeLength (cs ++ b :: rest) = 0
    · omega
    · obtain ⟨w, hp, hw, hlength⟩ := exists_lexeme h
      rw [← hlength]
      exact lexeme_length_le hw (hw.prefix_of_gap hb hp)
  · by_cases h : lexemeLength cs = 0
    · omega
    · obtain ⟨w, hp, hw, hlength⟩ := exists_lexeme h
      rw [← hlength]
      exact lexeme_length_le hw (hp.trans (List.prefix_append cs _))

/-- The tokens of a text with a blank in it are those in front of the blank and those behind it. -/
theorem tokens_append_gap (mode : LexMode) (p : Nat) {k : Nat} (cs rest : List Char)
    (hk : k ≤ cs.length) :
    tokens mode p k (cs ++ b :: rest) =
      match tokens mode p k cs with
      | .error e => .error e
      | .ok ts => (tokens mode (p + cs.length + 1) 0 rest).map (ts ++ ·) := by
  induction cs generalizing p k with
  | nil =>
    obtain rfl : k = 0 := Nat.le_zero.mp hk
    simp only [List.nil_append, tokens, hb, if_true]
    cases tokens mode (p + 1) 0 rest <;> rfl
  | cons c cs ih =>
    have hplace : p + (c :: cs).length + 1 = p + 1 + cs.length + 1 := by
      rw [List.length_cons]
      omega
    rw [hplace, List.cons_append]
    cases k with
    | succ k => exact ih (p + 1) (Nat.le_of_succ_le_succ hk)
    | zero =>
      have hlength := lexemeLength_append_gap hb (c :: cs) rest
      rw [List.cons_append] at hlength
      simp only [tokens, hlength]
      split
      · exact ih (p + 1) (Nat.zero_le _)
      · split
        · split
          · rfl
          · exact ih (p + 1) (Nat.zero_le _)
        · rename_i length hsome
          have hle : length ≤ cs.length := by
            have := lexemeLength_le (c :: cs)
            rw [List.length_cons] at this
            omega
          rw [ih (p + 1) hle, List.take_append_of_le_length hle]
          cases tokens mode (p + 1) length cs with
          | error e => rfl
          | ok ts => cases tokens mode (p + 1 + cs.length + 1) 0 rest <;> rfl

end Gap

/-! ### Blanks around a text -/

theorem tokens_blanks (mode : LexMode) (p : Nat) {lead : List Char}
    (hlead : ∀ c ∈ lead, Text.isBlank c = true) (cs : List Char) :
    tokens mode p 0 (lead ++ cs) = tokens mode (p + lead.length) 0 cs := by
  induction lead generalizing p with
  | nil => rfl
  | cons c lead ih =>
    have hrest := ih (p + 1) fun d hd => hlead d (by simp [hd])
    have hplace : p + (c :: lead).length = p + 1 + lead.length := by
      rw [List.length_cons]
      omega
    simp only [List.cons_append, tokens, hlead c (by simp), if_true, hrest, hplace]

theorem tokens_append_blanks (mode : LexMode) (p : Nat) {trail : List Char}
    (htrail : ∀ c ∈ trail, Text.isBlank c = true) (cs : List Char) :
    tokens mode p 0 (cs ++ trail) = tokens mode p 0 cs := by
  cases trail with
  | nil => rw [List.append_nil]
  | cons b rest =>
    have hend : tokens mode (p + cs.length + 1) 0 rest = .ok [] := by
      rw [← List.append_nil rest, tokens_blanks mode _ fun c hc => htrail c (by simp [hc])]
      rfl
    rw [tokens_append_gap (htrail b (by simp)) mode p cs rest (Nat.zero_le _), hend]
    cases tokens mode p 0 cs with
    | error e => rfl
    | ok ts => simp [Except.map]

/-! ### Words between spaces -/

/-- The token is what the word is read as. -/
inductive Reads : List Char → Token → Prop where
  | intro (first : Char) (others : List Char) (position : Nat) :
    Reads (first :: others) ⟨lexeme first others, position⟩

theorem tokens_of_isLexeme (mode : LexMode) (p : Nat) {w : List Char} (hw : IsLexeme w) :
    ∃ t, tokens mode p 0 w = .ok [t] ∧ Reads w t ∧ t.position = p := by
  obtain ⟨first, others, rfl, hblank, -⟩ := hw.first
  have hlongest : Longest (first :: others) (first :: others) :=
    ⟨List.prefix_rfl, hw, fun v hv _ => hv.length_le⟩
  have hlength : lexemeLength (first :: others) = others.length + 1 := by
    have hslice := congrArg List.length (longest_iff.mp hlongest).2
    have := lexemeLength_le (first :: others)
    rw [List.length_take, List.length_cons] at hslice
    rw [List.length_cons] at this
    omega
  refine ⟨⟨lexeme first others, p⟩, ?_, .intro first others p, rfl⟩
  simp only [tokens, hblank, hlength, tokens_skip _ _ others.length, List.drop_length,
    List.take_length]
  rfl

theorem tokens_append_of_isLexeme (mode : LexMode) (p : Nat) {w rest : List Char}
    (hw : IsLexeme w) (hrest : ∀ b ∈ rest.head?, Text.isBlank b = true) :
    ∃ t, tokens mode p 0 (w ++ rest) = (tokens mode (p + w.length) 0 rest).map (t :: ·) ∧
      Reads w t ∧ t.position = p := by
  obtain ⟨t, ht, hread⟩ := tokens_of_isLexeme mode p hw
  refine ⟨t, ?_, hread⟩
  cases rest with
  | nil =>
    rw [List.append_nil, ht]
    rfl
  | cons b rest =>
    have hb : Text.isBlank b = true := hrest b rfl
    rw [tokens_append_gap hb mode p w rest (Nat.zero_le _), ht]
    simp only [tokens, hb, if_true]
    rfl

theorem tokens_intercalate (mode : LexMode) (p : Nat) {words : List (List Char)}
    (h : ∀ w ∈ words, IsLexeme w) :
    ∃ ts, tokens mode p 0 ([' '].intercalate words) = .ok ts ∧ List.Forall₂ Reads words ts := by
  induction words generalizing p with
  | nil => exact ⟨[], rfl, .nil⟩
  | cons w words ih =>
    cases words with
    | nil =>
      obtain ⟨t, ht, hread, -⟩ := tokens_of_isLexeme mode p (h w (by simp))
      rw [List.intercalate_singleton]
      exact ⟨[t], ht, .cons hread .nil⟩
    | cons next more =>
      have hspace : ∀ c ∈ [' '], Text.isBlank c = true := by
        intro c hc
        rw [List.mem_singleton.mp hc]
        rfl
      have hrest : ∀ b ∈ ([' '] ++ [' '].intercalate (next :: more)).head?,
          Text.isBlank b = true := by
        intro b hb
        cases hb
        rfl
      obtain ⟨t, ht, hread, -⟩ := tokens_append_of_isLexeme mode p (h w (by simp)) hrest
      obtain ⟨ts, hts, hreads⟩ := ih (p + w.length + 1) fun v hv => h v (by simp [hv])
      refine ⟨t :: ts, ?_, .cons hread hreads⟩
      rw [List.intercalate_cons_cons, List.append_assoc, ht, tokens_blanks mode _ hspace,
        List.length_singleton, hts]
      rfl

/-- A word has a token, and if it has no more than one it is a lexeme. -/
theorem tokens_of_solid {p : Nat} {w : List Char} (hsome : w ≠ [])
    (hsolid : ∀ c ∈ w, Lexical c) {ts : List Token}
    (h : tokens .strict p 0 w = .ok ts) :
    ∃ t more, ts = t :: more ∧ (more = [] → IsLexeme w ∧ Reads w t) := by
  induction hn : w.length using Nat.strong_induction_on generalizing w p ts with
  | _ n ih =>
    obtain ⟨c, cs, rfl⟩ := List.exists_cons_of_ne_nil hsome
    simp only [tokens, (hsolid c (by simp)).not_isBlank, Bool.false_eq_true, if_false] at h
    split at h
    · cases h
    · rename_i length hlength
      have hlongest := longest_of_lexemeLength hlength
      split at h
      · cases h
      · rename_i more hmore
        cases h
        refine ⟨_, more, rfl, ?_⟩
        rintro rfl
        rw [tokens_skip] at hmore
        -- what is left behind the lexeme would have a token of its own
        have hend : cs.drop length = [] := by
          by_contra hrest
          obtain ⟨t, more, hts, -⟩ := ih _ (by simp at hn ⊢; omega) hrest
            (fun d hd => hsolid d (by simp [List.mem_of_mem_drop hd])) hmore rfl
          cases hts
        have hwhole : cs.take length = cs := by
          rw [List.take_of_length_le (List.drop_eq_nil_iff.mp hend)]
        rw [hwhole] at hlongest ⊢
        exact ⟨hlongest.lexeme, .intro c cs p⟩

/-- Words that are scanned to no more tokens than there are words are lexemes. -/
theorem reads_of_tokens {p : Nat} {words : List (List Char)}
    (hwords : ∀ w ∈ words, w ≠ [] ∧ ∀ c ∈ w, Lexical c) {ts : List Token}
    (h : tokens .strict p 0 ([' '].intercalate words) = .ok ts) :
    words.length ≤ ts.length ∧
      (ts.length ≤ words.length → List.Forall₂ (fun w t => IsLexeme w ∧ Reads w t) words ts) := by
  induction words generalizing p ts with
  | nil =>
    cases h
    exact ⟨le_rfl, fun _ => .nil⟩
  | cons w words ih =>
    obtain ⟨hsome, hsolid⟩ := hwords w (by simp)
    cases words with
    | nil =>
      rw [List.intercalate_singleton] at h
      obtain ⟨t, more, rfl, hread⟩ := tokens_of_solid hsome hsolid h
      refine ⟨by simp, ?_⟩
      intro hcount
      obtain rfl : more = [] := by simpa using hcount
      exact .cons (hread rfl) .nil
    | cons next rest =>
      rw [List.intercalate_cons_cons, List.append_assoc, List.singleton_append,
        tokens_append_gap rfl .strict p w _ (Nat.zero_le _)] at h
      cases hfront : tokens .strict p 0 w with
      | error e =>
        rw [hfront] at h
        cases h
      | ok front =>
        cases hback : tokens .strict (p + w.length + 1) 0 ([' '].intercalate (next :: rest)) with
        | error e =>
          rw [hfront, hback] at h
          cases h
        | ok back =>
          rw [hfront, hback] at h
          cases h
          obtain ⟨t, more, rfl, hread⟩ := tokens_of_solid hsome hsolid hfront
          obtain ⟨hle, hreads⟩ := ih (fun v hv => hwords v (by simp [hv])) hback
          simp only [List.length_cons, List.length_append] at hle ⊢
          refine ⟨by omega, ?_⟩
          intro hcount
          obtain rfl : more = [] := List.length_eq_zero_iff.mp (by omega)
          exact .cons (hread rfl) (hreads (by simp at hcount ⊢; omega))

theorem mem_intercalate {c : Char} {words : List (List Char)}
    (h : c ∈ [' '].intercalate words) : c = ' ' ∨ ∃ w ∈ words, c ∈ w := by
  induction words with
  | nil => cases h
  | cons w words ih =>
    cases words with
    | nil =>
      rw [List.intercalate_singleton] at h
      exact .inr ⟨w, by simp, h⟩
    | cons next more =>
      rw [List.intercalate_cons_cons, List.append_assoc, List.mem_append] at h
      rcases h with h | h
      · exact .inr ⟨w, by simp, h⟩
      · rcases List.mem_cons.mp h with rfl | h
        · exact .inl rfl
        · rcases ih h with rfl | ⟨v, hv, hc⟩
          · exact .inl rfl
          · exact .inr ⟨v, by simp [hv], hc⟩

theorem lower_intercalate {words : List (List Char)} (h : ∀ w ∈ words, ∀ c ∈ w, Lexical c) :
    Text.lower ([' '].intercalate words) = [' '].intercalate words := by
  refine Text.lower_eq_self ?_
  intro c hc
  rcases mem_intercalate hc with rfl | ⟨w, hw, hc⟩
  · decide
  · exact (h w hw c hc).range

end Scan
end CurveSketch
