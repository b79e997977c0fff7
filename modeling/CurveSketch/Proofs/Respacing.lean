import CurveSketch.Proofs.Relabelling
import CurveSketch.Proofs.Spacing
import CurveSketch.Proofs.StackSafety

/-!
# CurveSketch.Proofs.Respacing

White space between lexemes is free. The lexemes of a text that strict scanning accepts can be set
apart by blanks of any kind and any number: the new text has the same tokens, each at the offset of
its lexeme (`Scan.tokens_spaced`). No lexeme grows in the new text, as blanks end lexemes, and lower
case goes through the new text character by character, as no character of the accepted text has a
lower case of two characters or one that depends on its neighbours (`Text.Single`). The compiler
makes use of positions in errors only, so it returns the same instructions, or the same error about
the same token (`Program.Agree`).
-/

namespace CurveSketch

/-! ### Lower case, character by character -/

namespace Text

/-- A character with a lower case of one character, the same one wherever it stands. -/
def Single (c : Char) : Prop :=
  c ≠ '\u03a3' ∧ c ≠ '\u0130'

theorem Settled.single {c : Char} (h : Settled c) : Single c := by
  refine ⟨h.1, ?_⟩
  rintro rfl
  have hlength := congrArg List.length h.2
  cases hlength

theorem lowerFrom_of_single {cs : List Char} (h : ∀ c ∈ cs, Single c) (before : Bool) :
    lowerFrom before cs = cs.map (shiftCase lowerShifts) := by
  induction cs generalizing before with
  | nil => rfl
  | cons c rest ih =>
    obtain ⟨hsigma, hdotted⟩ := h c (by simp)
    rw [lowerFrom, if_neg hsigma, lowerChar, if_neg hdotted, ih fun d hd => h d (by simp [hd])]
    rfl

theorem lower_of_single {cs : List Char} (h : ∀ c ∈ cs, Single c) :
    lower cs = cs.map (shiftCase lowerShifts) :=
  lowerFrom_of_single h false

theorem lower_append {cs ds : List Char} (hcs : ∀ c ∈ cs, Single c) (hds : ∀ c ∈ ds, Single c) :
    lower (cs ++ ds) = lower cs ++ lower ds := by
  rw [lower_of_single (List.forall_mem_append.mpr ⟨hcs, hds⟩), List.map_append,
    lower_of_single hcs, lower_of_single hds]

end Text

namespace Scan

theorem single_of_accepted {cs : List Char} {before : Bool}
    (h : ∀ d ∈ Text.lowerFrom before cs, Accepted d) : ∀ c ∈ cs, Text.Single c := by
  induction cs generalizing before with
  | nil => simp
  | cons c rest ih =>
    rw [Text.lowerFrom] at h
    rw [List.forall_mem_cons]
    split at h
    case isTrue hsigma =>
      rw [List.forall_mem_cons] at h
      have hsmall := h.1
      split at hsmall
      · exact absurd (hsmall.small (by decide)) (by decide)
      · exact absurd (hsmall.small (by decide)) (by decide)
    case isFalse hsigma =>
      rw [List.forall_mem_append] at h
      refine ⟨⟨hsigma, ?_⟩, ih h.2⟩
      rintro rfl
      have hdot := h.1 '\u0307' (by simp [Text.lowerChar])
      exact absurd (hdot.small (by decide)) (by decide)

/-! ### Words with blanks between them -/

/-- A word and the gap in front of it. -/
structure Piece where
  gap : List Char
  word : List Char

/-- The text of the pieces, one after the other, and of what follows the last word. -/
def spaced (trail : List Char) : List Piece → List Char
  | [] => trail
  | piece :: rest => piece.gap ++ piece.word ++ spaced trail rest

/-- Where the words of the pieces stand in the text, if the pieces begin at `start`. -/
def wordOffsets (start : Nat) : List Piece → List Nat
  | [] => []
  | piece :: rest =>
    (start + piece.gap.length) ::
      wordOffsets (start + piece.gap.length + piece.word.length) rest

/-- All gaps are blank, and none between two words is empty. -/
structure Separated (trail : List Char) (pieces : List Piece) : Prop where
  gaps : ∀ piece ∈ pieces, ∀ c ∈ piece.gap, Text.isBlank c = true
  trail : ∀ c ∈ trail, Text.isBlank c = true
  apart : ∀ piece ∈ pieces.tail, piece.gap ≠ []

section Spaced

variable {trail : List Char}

theorem Separated.tail {piece : Piece} {rest : List Piece}
    (h : Separated trail (piece :: rest)) : Separated trail rest where
  gaps a ha := h.gaps a (by simp [ha])
  trail := h.trail
  apart a ha := h.apart a (List.mem_of_mem_tail ha)

theorem Separated.head {piece : Piece} {rest : List Piece} (h : Separated trail (piece :: rest)) :
    ∀ b ∈ (spaced trail rest).head?, Text.isBlank b = true := by
  intro b hb
  cases rest with
  | nil => exact h.trail b (List.mem_of_mem_head? hb)
  | cons next more =>
    have hgap : next.gap ≠ [] := h.apart next (by simp)
    rw [spaced, List.append_assoc, List.head?_append_of_ne_nil _ hgap] at hb
    exact h.gaps next (by simp) b (List.mem_of_mem_head? hb)

/-- Lexemes that are set apart by blanks have one token each, at the offset of the lexeme. -/
theorem tokens_spaced (mode : LexMode) (p : Nat) {pieces : List Piece}
    (hwords : ∀ piece ∈ pieces, IsLexeme piece.word) (h : Separated trail pieces) :
    ∃ us, tokens mode p 0 (spaced trail pieces) = .ok us ∧
      us.map Token.position = wordOffsets p pieces ∧
      List.Forall₂ Reads (pieces.map Piece.word) us := by
  induction pieces generalizing p with
  | nil =>
    refine ⟨[], ?_, rfl, .nil⟩
    rw [spaced, ← List.append_nil trail, tokens_blanks mode p h.trail]
    rfl
  | cons piece rest ih =>
    obtain ⟨t, ht, hread, hposition⟩ := tokens_append_of_isLexeme mode (p + piece.gap.length)
      (hwords piece (by simp)) h.head
    obtain ⟨us, hus, hoffsets, hreads⟩ := ih (p + piece.gap.length + piece.word.length)
      (fun a ha => hwords a (by simp [ha])) h.tail
    -- the scan passes over the gap, reads the word, and is at the next gap
    refine ⟨t :: us, ?_, ?_, .cons hread hreads⟩
    · rw [spaced, List.append_assoc, tokens_blanks mode p (h.gaps piece (by simp)), ht, hus]
      rfl
    · rw [List.map_cons, hposition, hoffsets, wordOffsets]

/-- The pieces with their words in lower case. -/
def Piece.lower (piece : Piece) : Piece :=
  ⟨piece.gap, Text.lower piece.word⟩

theorem single_of_blank {gap : List Char} (h : ∀ c ∈ gap, Text.isBlank c = true) :
    ∀ c ∈ gap, Text.Single c :=
  fun c hc => (Text.settled_of_isBlank (h c hc)).single

theorem lower_of_blank {gap : List Char} (h : ∀ c ∈ gap, Text.isBlank c = true) :
    Text.lower gap = gap :=
  Text.lower_of_settled fun c hc => Text.settled_of_isBlank (h c hc)

theorem single_spaced {pieces : List Piece} (h : Separated trail pieces)
    (hwords : ∀ piece ∈ pieces, ∀ c ∈ piece.word, Text.Single c) :
    ∀ c ∈ spaced trail pieces, Text.Single c := by
  induction pieces with
  | nil => exact single_of_blank h.trail
  | cons piece rest ih =>
    rw [spaced, List.forall_mem_append, List.forall_mem_append]
    exact ⟨⟨single_of_blank (h.gaps piece (by simp)), hwords piece (by simp)⟩,
      ih h.tail fun a ha => hwords a (by simp [ha])⟩

theorem lower_spaced {pieces : List Piece} (h : Separated trail pieces)
    (hwords : ∀ piece ∈ pieces, ∀ c ∈ piece.word, Text.Single c) :
    Text.lower (spaced trail pieces) = spaced trail (pieces.map Piece.lower) := by
  induction pieces with
  | nil => exact lower_of_blank h.trail
  | cons piece rest ih =>
    have hgap := h.gaps piece (by simp)
    have hword := hwords piece (by simp)
    have hrest : ∀ a ∈ rest, ∀ c ∈ a.word, Text.Single c := fun a ha => hwords a (by simp [ha])
    rw [spaced, Text.lower_append
        (List.forall_mem_append.mpr ⟨single_of_blank hgap, hword⟩) (single_spaced h.tail hrest),
      Text.lower_append (single_of_blank hgap) hword, lower_of_blank hgap, ih h.tail hrest,
      List.map_cons, spaced, Piece.lower]

theorem wordOffsets_lower (start : Nat) {pieces : List Piece}
    (hwords : ∀ piece ∈ pieces, ∀ c ∈ piece.word, Text.Single c) :
    wordOffsets start (pieces.map Piece.lower) = wordOffsets start pieces := by
  induction pieces generalizing start with
  | nil => rfl
  | cons piece rest ih =>
    have hlength : (Text.lower piece.word).length = piece.word.length := by
      rw [Text.lower_of_single (hwords piece (by simp)), List.length_map]
    rw [List.map_cons, wordOffsets, wordOffsets, ih _ fun a ha => hwords a (by simp [ha])]
    simp only [Piece.lower, hlength]

theorem Separated.lower {pieces : List Piece} (h : Separated trail pieces) :
    Separated trail (pieces.map Piece.lower) where
  gaps := by
    rw [List.forall_mem_map]
    exact h.gaps
  trail := h.trail
  apart := by
    rw [← List.map_tail, List.forall_mem_map]
    exact h.apart

end Spaced
end Scan

/-! ### The source of a token -/

/-- The characters that the token was read from: those of the text, or those that the scanner has in
their place. -/
def Token.IsSource (text : List Char) (t : Token) (w : List Char) : Prop :=
  w = (text.drop t.position).take (Scan.sliceAt (Text.lower text) t.position).length ∨
    w = Scan.sliceAt (Text.lower text) t.position

section Source

open Scan

variable {text : List Char} (hsingle : ∀ c ∈ text, Text.Single c)

include hsingle

theorem Token.IsSource.lower {t : Token} {w : List Char} (h : t.IsSource text w)
    (hlexeme : IsLexeme (sliceAt (Text.lower text) t.position)) :
    (∀ c ∈ w, Text.Single c) ∧ Text.lower w = sliceAt (Text.lower text) t.position := by
  rcases h with rfl | rfl
  · have hslice : ∀ c ∈ (text.drop t.position).take
        (sliceAt (Text.lower text) t.position).length, Text.Single c :=
      fun c hc => hsingle c (List.mem_of_mem_drop (List.mem_of_mem_take hc))
    refine ⟨hslice, ?_⟩
    have hprefix : sliceAt (Text.lower text) t.position <+: (Text.lower text).drop t.position :=
      List.take_prefix _ _
    rw [Text.lower_of_single hslice, List.map_take, List.map_drop, ← Text.lower_of_single hsingle]
    exact (List.prefix_iff_eq_take.mp hprefix).symm
  · have hsettled : ∀ c ∈ sliceAt (Text.lower text) t.position, Text.Settled c :=
      fun c hc => (hlexeme.all c hc).settled
    exact ⟨fun c hc => (hsettled c hc).single, Text.lower_of_settled hsettled⟩

theorem lower_sources {ts : List Token} {words : List (List Char)}
    (hts : ∀ t ∈ ts, IsLexeme (sliceAt (Text.lower text) t.position))
    (h : List.Forall₂ (Token.IsSource text) ts words) :
    (∀ w ∈ words, ∀ c ∈ w, Text.Single c) ∧
      words.map Text.lower = ts.map fun t => sliceAt (Text.lower text) t.position := by
  induction h with
  | nil => simp
  | cons hsource _ ih =>
    obtain ⟨hword, hlower⟩ := hsource.lower hsingle (hts _ (by simp))
    obtain ⟨hwords, hrest⟩ := ih fun t ht => hts t (by simp [ht])
    rw [List.forall_mem_cons, List.map_cons, List.map_cons, hlower, hrest]
    exact ⟨⟨hword, hwords⟩, rfl⟩

end Source

theorem Scan.Reads.lexeme_eq {w : List Char} {t u : Token} (ht : Reads w t) (hu : Reads w u) :
    u.lexeme = t.lexeme := by
  cases ht
  cases hu
  rfl

theorem lexemes_of_reads {word : Token → List Char} {ts us : List Token}
    (hts : ∀ t ∈ ts, Scan.Reads (word t) t) (hus : List.Forall₂ Scan.Reads (ts.map word) us) :
    us.map Token.lexeme = ts.map Token.lexeme := by
  induction ts generalizing us with
  | nil =>
    cases hus
    rfl
  | cons t rest ih =>
    cases hus with
    | cons hu hrest =>
      rw [List.map_cons, List.map_cons, (hts t (by simp)).lexeme_eq hu,
        ih (fun a ha => hts a (by simp [ha])) hrest]

section Accepted

variable {limit : Int} {text : String} {ts : List Token}
  (h : tokenize .strict limit text = .ok ts)

include h

theorem partition_of_tokenize : ∃ placed, placed.map Scan.Placed.token = ts ∧
    Scan.Partition (Text.lower text.toList) 0 (Text.lower text.toList).length placed := by
  have hanswer := Scan.tokens_answer (Text.lower text.toList) 0 (Nat.zero_le _)
  rw [List.drop_zero, (tokenize_eq_ok.mp h).2] at hanswer
  exact hanswer

theorem increasing_of_tokenize : ts.Pairwise fun a b => a.position < b.position := by
  obtain ⟨placed, rfl, hpartition⟩ := partition_of_tokenize h
  exact hpartition.increasing

theorem single_of_tokenize : ∀ c ∈ text.toList, Text.Single c := by
  obtain ⟨placed, -, hpartition⟩ := partition_of_tokenize h
  exact Scan.single_of_accepted hpartition.accepted

theorem reads_of_tokenize : ∀ t ∈ ts,
    Scan.IsLexeme (Scan.sliceAt (Text.lower text.toList) t.position) ∧
      Scan.Reads (Scan.sliceAt (Text.lower text.toList) t.position) t := by
  rintro ⟨lexeme, position⟩ ht
  obtain ⟨i, c, others, hposition, hslice, hread⟩ :=
    Scan.slice_of_tokens (tokenize_eq_ok.mp h).2 _ ht
  simp only [Nat.zero_add] at hposition hread
  subst hposition hread
  refine ⟨Scan.isLexeme_of_sliceAt (by simp [hslice]), ?_⟩
  rw [hslice]
  exact .intro c others position

/-- The lexemes of the text with blanks between them have the tokens of the text. -/
theorem tokenize_spaced {trail : List Char} {pieces : List Scan.Piece}
    (hwords : List.Forall₂ (Token.IsSource text.toList) ts (pieces.map Scan.Piece.word))
    (hseparated : Scan.Separated trail pieces) {limit' : Int}
    (hlimit : (Scan.spaced trail pieces).length ≤ limit') :
    ∃ us, tokenize .strict limit' (String.ofList (Scan.spaced trail pieces)) = .ok us ∧
      us.map Token.lexeme = ts.map Token.lexeme ∧
      us.map Token.position = Scan.wordOffsets 0 pieces := by
  have hreads := reads_of_tokenize h
  obtain ⟨hsingle, hlower⟩ :=
    lower_sources (single_of_tokenize h) (fun t ht => (hreads t ht).1) hwords
  rw [List.forall_mem_map] at hsingle
  have hlowered : (pieces.map Scan.Piece.lower).map Scan.Piece.word =
      ts.map fun t => Scan.sliceAt (Text.lower text.toList) t.position := by
    rw [← hlower, List.map_map, List.map_map]
    rfl
  have hlexemes : ∀ piece ∈ pieces.map Scan.Piece.lower, Scan.IsLexeme piece.word := by
    rw [← List.forall_mem_map, hlowered, List.forall_mem_map]
    exact fun t ht => (hreads t ht).1
  obtain ⟨us, hus, hoffsets, hread⟩ := Scan.tokens_spaced .strict 0 hlexemes hseparated.lower
  refine ⟨us, ?_, ?_, ?_⟩
  · rw [tokenize_eq_ok, String.toList_ofList, Scan.lower_spaced hseparated hsingle]
    exact ⟨hlimit, hus⟩
  · rw [hlowered] at hread
    exact lexemes_of_reads (fun t ht => (hreads t ht).2) hread
  · rw [hoffsets, Scan.wordOffsets_lower 0 hsingle]

end Accepted

/-! ### The same tokens elsewhere -/

theorem exists_relabel {ts us : List Token} (h : us.map Token.lexeme = ts.map Token.lexeme)
    (hts : ts.Pairwise fun a b => a.position < b.position) :
    ∃ f, us = ts.map (Token.relabel f) := by
  induction ts generalizing us with
  | nil => exact ⟨id, by simpa using h⟩
  | cons t ts ih =>
    cases us with
    | nil => cases h
    | cons u us =>
      rw [List.map_cons, List.map_cons, List.cons.injEq] at h
      obtain ⟨hfollow, hts⟩ := List.pairwise_cons.mp hts
      obtain ⟨f, rfl⟩ := ih h.2 hts
      -- the position of the first token is that of no other one
      refine ⟨fun i => if i = t.position then u.position else f i, ?_⟩
      rw [List.map_cons, List.cons.injEq]
      constructor
      · simp [Token.relabel, ← h.1]
      · refine List.map_congr_left fun a ha => ?_
        have := hfollow a ha
        have hne : a.position ≠ t.position := by omega
        simp [Token.relabel, hne]

namespace Program

/-- What compiling has for two lists of tokens: the same instructions, or the same error. If the
error is about a token, it is about the one in the same place of the other list. -/
inductive Agree (ts us : List Token) :
    Except CompileError Program → Except CompileError Program → Prop
  | ok {p q : Program} (same : q.instructions = p.instructions) : Agree ts us (.ok p) (.ok q)
  | error {e : SyntaxError} (f : Nat → Nat)
      (places : ∀ i, e.position? = some i → ∃ (k : Nat) (t u : Token),
        ts[k]? = some t ∧ us[k]? = some u ∧ t.position = i ∧ u.position = f i) :
      Agree ts us (.error (.grammar e)) (.error (.grammar (e.relabel f)))

theorem agree_of_relabel {mode mode' : LexMode} {limit limit' : Int} {text text' : String}
    {ts : List Token} (f : Nat → Nat) (h : tokenize mode limit text = .ok ts)
    (h' : tokenize mode' limit' text' = .ok (ts.map (Token.relabel f))) :
    Agree ts (ts.map (Token.relabel f)) (compile mode limit text) (compile mode' limit' text') := by
  rw [compile_eq, compile_eq, h, h']
  simp only [ofTokens, Compile.instructions_relabel]
  cases hinstructions : Compile.instructions ts with
  | ok instructions => exact .ok rfl
  | error e =>
    refine .error f fun i hi => ?_
    obtain ⟨t, ht, hposition⟩ := Compile.exists_token_of_position? hinstructions hi
    obtain ⟨k, hk⟩ := List.mem_iff_getElem?.mp ht
    refine ⟨k, t, t.relabel f, hk, ?_, hposition, congrArg f hposition⟩
    rw [List.getElem?_map, hk, Option.map_some]

/-- If strict scanning accepts a text, its lexemes can be set apart by white space of any kind and
any number, also around the whole. The new text has tokens of the same kinds and values, each at the
offset of its lexeme, and it is compiled to the same instructions, or both texts are refused for the
same reason and because of the same token. -/
theorem compile_spaced {limit limit' : Int} {text : String} {ts : List Token}
    (h : tokenize .strict limit text = .ok ts) {trail : List Char} {pieces : List Scan.Piece}
    (hwords : List.Forall₂ (Token.IsSource text.toList) ts (pieces.map Scan.Piece.word))
    (hseparated : Scan.Separated trail pieces)
    (hlimit : (Scan.spaced trail pieces).length ≤ limit') :
    ∃ us, tokenize .strict limit' (String.ofList (Scan.spaced trail pieces)) = .ok us ∧
      us.map Token.lexeme = ts.map Token.lexeme ∧
      us.map Token.position = Scan.wordOffsets 0 pieces ∧
      Agree ts us (compile .strict limit text)
        (compile .strict limit' (String.ofList (Scan.spaced trail pieces))) := by
  obtain ⟨us, hus, hlexemes, hpositions⟩ := tokenize_spaced h hwords hseparated hlimit
  obtain ⟨f, rfl⟩ := exists_relabel hlexemes (increasing_of_tokenize h)
  exact ⟨_, hus, hlexemes, hpositions, agree_of_relabel f h hus⟩

/-- The lexemes of `2SIN(X)` with blanks in front of them, the variable in lower case. -/
def sinePieces : List Scan.Piece :=
  [⟨['\u3000'], ['2']⟩, ⟨['\t'], ['S', 'I', 'N']⟩, ⟨[' '], ['(']⟩, ⟨['\n', ' '], ['x']⟩,
    ⟨[' '], [')']⟩]

theorem compile_spaced_sine :
    Scan.Separated ['\u2028'] sinePieces ∧
    ∃ ts us, tokenize .strict 8 "2SIN(X)" = .ok ts ∧
      tokenize .strict 16 (String.ofList (Scan.spaced ['\u2028'] sinePieces)) = .ok us ∧
      us.map Token.position = [1, 3, 7, 10, 12] ∧
      Agree ts us (compile .strict 8 "2SIN(X)")
        (compile .strict 16 (String.ofList (Scan.spaced ['\u2028'] sinePieces))) := by
  have hread : tokenize .strict 8 "2SIN(X)" = .ok [⟨.number (Scan.numeralValue ['2']), 0⟩,
      ⟨.function "sin", 1⟩, ⟨.leftParen, 4⟩, ⟨.var, 5⟩, ⟨.rightParen, 6⟩] := by
    rfl
  have hseparated : Scan.Separated ['\u2028'] sinePieces :=
    ⟨by simp [sinePieces, Text.isBlank, Text.isWhiteSpace],
      by simp [Text.isBlank, Text.isWhiteSpace], by decide⟩
  have hlimit : (Scan.spaced ['\u2028'] sinePieces).length ≤ (16 : Int) := by decide
  obtain ⟨us, hus, -, hpositions, hagree⟩ := compile_spaced hread
    (.cons (.inl rfl) (.cons (.inl rfl) (.cons (.inl rfl) (.cons (.inr rfl) (.cons (.inl rfl)
      .nil))))) hseparated hlimit
  exact ⟨hseparated, _, us, hread, hus, hpositions, hagree⟩

end Program
end CurveSketch
