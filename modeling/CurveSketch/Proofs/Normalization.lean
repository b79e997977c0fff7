import CurveSketch.Proofs.Rendering
import CurveSketch.Proofs.Spacing
import CurveSketch.Proofs.StackSafety

/-!
# CurveSketch.Proofs.Normalization

The normalized text of a summary, read again. A token's text is a lexeme for a token of the same
kind with the same text (`ReadFrom.spelled`), so the normalized text is scanned to such tokens, and
the grammar does not tell them from the old ones (`Derives.of_shape`). The exception is a number
that twelve digits write with an exponent: the scanner has no lexeme for it (`Lexeme.Positional`).
-/

namespace CurveSketch

/-- What a summary shows of a token: its kind and its text. -/
def Token.shape (t : Token) : TokenKind × String :=
  (t.kind, t.text)

/-- A number is written without an exponent, and is no infinity. -/
def Lexeme.Positional : Lexeme → Prop
  | number x => ∀ c ∈ Decimal.Layout.twelve.characters x, Scan.startsNumeral c = true
  | _ => True

/-! ### Tokens of the same shape -/

namespace Token

theorem eq_of_shape {t : Token} {lexeme : Lexeme} {position : Nat}
    (h : t.shape = shape ⟨lexeme, position⟩) (hnumber : lexeme.kind ≠ .number) :
    t.lexeme = lexeme := by
  obtain ⟨lexeme', position'⟩ := t
  simp only [shape, kind, text, Prod.mk.injEq] at h
  obtain ⟨hkind, htext⟩ := h
  cases lexeme with
  | number value => exact absurd rfl hnumber
  | var | leftParen | rightParen => cases lexeme' <;> first | rfl | cases hkind
  | function name =>
    cases lexeme' with
    | function name' => exact congrArg Lexeme.function htext
    | number | var | operator | leftParen | rightParen => cases hkind
  | operator symbol =>
    cases lexeme' with
    | operator symbol' => exact congrArg Lexeme.operator htext
    | number | var | function | leftParen | rightParen => cases hkind

theorem number_of_shape {t : Token} {value : Float} {position : Nat}
    (h : t.shape = shape ⟨.number value, position⟩) :
    ∃ value', t = ⟨.number value', t.position⟩ ∧
      Decimal.Layout.twelve.render value' = Decimal.Layout.twelve.render value := by
  obtain ⟨lexeme, position'⟩ := t
  simp only [shape, kind, text, Prod.mk.injEq] at h
  obtain ⟨hkind, htext⟩ := h
  cases lexeme with
  | number value' => exact ⟨value', rfl, htext⟩
  | var | function | operator | leftParen | rightParen => cases hkind

variable {ts us cs : List Token} {lexeme : Lexeme} {position : Nat}

theorem cons_of_shape (h : cs.map shape = (⟨lexeme, position⟩ :: us).map shape)
    (hnumber : lexeme.kind ≠ .number) :
    ∃ position' bs, cs = ⟨lexeme, position'⟩ :: bs ∧ bs.map shape = us.map shape := by
  rw [List.map_cons, List.map_eq_cons_iff] at h
  obtain ⟨t, bs, rfl, ht, hbs⟩ := h
  refine ⟨t.position, bs, ?_, hbs⟩
  rw [← eq_of_shape ht hnumber]

theorem singleton_of_shape (h : cs.map shape = [⟨lexeme, position⟩].map shape)
    (hnumber : lexeme.kind ≠ .number) : ∃ position', cs = [⟨lexeme, position'⟩] := by
  obtain ⟨position', bs, rfl, hbs⟩ := cons_of_shape h hnumber
  rw [List.map_nil, List.map_eq_nil_iff] at hbs
  exact ⟨position', by rw [hbs]⟩

theorem append_of_shape (h : cs.map shape = (ts ++ us).map shape) :
    ∃ fs bs, cs = fs ++ bs ∧ fs.map shape = ts.map shape ∧ bs.map shape = us.map shape := by
  rw [List.map_append, List.map_eq_append_iff] at h
  exact h

theorem around_of_shape (h : cs.map shape = (ts ++ ⟨lexeme, position⟩ :: us).map shape)
    (hnumber : lexeme.kind ≠ .number) :
    ∃ fs position' bs, cs = fs ++ ⟨lexeme, position'⟩ :: bs ∧ fs.map shape = ts.map shape ∧
      bs.map shape = us.map shape := by
  obtain ⟨fs, rest, rfl, hfs, hrest⟩ := append_of_shape h
  obtain ⟨position', bs, rfl, hbs⟩ := cons_of_shape hrest hnumber
  exact ⟨fs, position', bs, rfl, hfs, hbs⟩

end Token

open Token

/-- The grammar reads kinds and texts only: tokens of the same shape have a tree whose listing shows
the same texts. -/
theorem Derives.of_shape {level : Level} {ts us : List Token} {e : Expr} (h : Derives level ts e)
    (hus : us.map shape = ts.map shape) :
    ∃ e', Derives level us e' ∧
      e'.instructions.map Instruction.text = e.instructions.map Instruction.text := by
  induction h generalizing us with
  | sum op position level left right ihl ihr =>
    obtain ⟨fs, position', bs, rfl, hfs, hbs⟩ := around_of_shape hus (by simp [Lexeme.kind])
    obtain ⟨l, hl, hltext⟩ := ihl hfs
    obtain ⟨r, hr, hrtext⟩ := ihr hbs
    exact ⟨_, .sum op position' level hl hr, by simp [Expr.instructions, hltext, hrtext]⟩
  | product op position level left right ihl ihr =>
    obtain ⟨fs, position', bs, rfl, hfs, hbs⟩ := around_of_shape hus (by simp [Lexeme.kind])
    obtain ⟨l, hl, hltext⟩ := ihl hfs
    obtain ⟨r, hr, hrtext⟩ := ihr hbs
    exact ⟨_, .product op position' level hl hr, by simp [Expr.instructions, hltext, hrtext]⟩
  | power position base exponent ihb ihe =>
    obtain ⟨fs, position', bs, rfl, hfs, hbs⟩ := around_of_shape hus (by simp [Lexeme.kind])
    obtain ⟨l, hl, hltext⟩ := ihb hfs
    obtain ⟨r, hr, hrtext⟩ := ihe hbs
    exact ⟨_, .power position' hl hr, by simp [Expr.instructions, hltext, hrtext]⟩
  | implicit left right ihl ihr =>
    obtain ⟨fs, bs, rfl, hfs, hbs⟩ := append_of_shape hus
    obtain ⟨l, hl, hltext⟩ := ihl hfs
    obtain ⟨r, hr, hrtext⟩ := ihr hbs
    exact ⟨_, .implicit hl hr, by simp [Expr.instructions, hltext, hrtext]⟩
  | neg position operand ih =>
    obtain ⟨position', bs, rfl, hbs⟩ := cons_of_shape hus (by simp [Lexeme.kind])
    obtain ⟨e, he, htext⟩ := ih hbs
    exact ⟨_, .neg position' he, by simp [Expr.instructions, htext]⟩
  | number value position =>
    rw [List.map_singleton, List.map_eq_singleton_iff] at hus
    obtain ⟨t, rfl, ht⟩ := hus
    obtain ⟨value', ht', htext⟩ := number_of_shape ht
    rw [ht']
    exact ⟨_, .number value' t.position, by simp [Expr.instructions, Instruction.text, htext]⟩
  | var position =>
    obtain ⟨position', rfl⟩ := singleton_of_shape hus (by simp [Lexeme.kind])
    exact ⟨_, .var position', rfl⟩
  | call f name opening closing argument ih =>
    obtain ⟨name', afterName, rfl, hafter⟩ := cons_of_shape hus (by simp [Lexeme.kind])
    obtain ⟨opening', rest, rfl, hrest⟩ := cons_of_shape hafter (by simp [Lexeme.kind])
    obtain ⟨fs, bs, rfl, hfs, hbs⟩ := append_of_shape hrest
    obtain ⟨closing', rfl⟩ := singleton_of_shape hbs (by simp [Lexeme.kind])
    obtain ⟨e, he, htext⟩ := ih hfs
    exact ⟨_, .call f name' opening' closing' he, by simp [Expr.instructions, htext]⟩
  | group opening closing inside ih =>
    obtain ⟨opening', rest, rfl, hrest⟩ := cons_of_shape hus (by simp [Lexeme.kind])
    obtain ⟨fs, bs, rfl, hfs, hbs⟩ := append_of_shape hrest
    obtain ⟨closing', rfl⟩ := singleton_of_shape hbs (by simp [Lexeme.kind])
    obtain ⟨e, he, htext⟩ := ih hfs
    exact ⟨e, .group opening' closing' he, htext⟩
  | ofProduct h ih =>
    obtain ⟨e, he, htext⟩ := ih hus
    exact ⟨e, .ofProduct he, htext⟩
  | ofFactor h ih =>
    obtain ⟨e, he, htext⟩ := ih hus
    exact ⟨e, .ofFactor he, htext⟩
  | ofPower h ih =>
    obtain ⟨e, he, htext⟩ := ih hus
    exact ⟨e, .ofPower he, htext⟩
  | ofAtom h ih =>
    obtain ⟨e, he, htext⟩ := ih hus
    exact ⟨e, .ofAtom he, htext⟩

/-! ### Texts of tokens as lexemes -/

namespace Scan

theorem Spells.text_eq {w : List Char} {lexeme : Lexeme} (h : Spells w lexeme)
    (hnumber : lexeme.kind ≠ .number) : lexeme.text.toList = w := by
  cases h with
  | number | constant => exact absurd rfl hnumber
  | var | function | leftParen | rightParen => rfl
  | operator => simp [Lexeme.text]

theorem lexeme_of_numeral {first : Char} {others : List Char} {q : ℚ}
    (h : Numeral (first :: others) q) :
    lexeme first others = .number (numeralValue (first :: others)) := by
  have hfirst := h.all first (by simp)
  rw [lexeme, not_isSymbol_of_startsNumeral hfirst, not_isLetter_of_startsNumeral hfirst]
  rfl

theorem toList_text_number (x : Float) (position : Nat) :
    (Token.text ⟨.number x, position⟩).toList = Decimal.Layout.twelve.characters x := by
  simp [Token.text, Lexeme.text, Decimal.Layout.render]

theorem ReadFrom.number_or_reads {cs : List Char} {t : Token} (h : ReadFrom cs t) :
    (∃ x, t.lexeme = .number x) ∨ IsLexeme t.text.toList ∧ Reads t.text.toList t := by
  obtain ⟨c, others, -, hlexeme, hread⟩ := h
  have hspells := spells_lexeme hlexeme
  rw [← hread] at hspells
  by_cases hnumber : t.lexeme.kind = .number
  · left
    cases hkind : t.lexeme with
    | number x => exact ⟨x, rfl⟩
    | var | function | operator | leftParen | rightParen =>
      rw [hkind] at hnumber
      cases hnumber
  · right
    have htext : t.text.toList = c :: others := hspells.text_eq hnumber
    obtain ⟨lexeme, position⟩ := t
    simp only at hread
    rw [htext, hread]
    exact ⟨hlexeme, .intro c others position⟩

theorem ReadFrom.lexical {cs : List Char} {t : Token} (h : ReadFrom cs t) :
    t.text.toList ≠ [] ∧ ∀ c ∈ t.text.toList, Lexical c := by
  rcases h.number_or_reads with ⟨x, hx⟩ | ⟨hlexeme, hread⟩
  · obtain ⟨lexeme, position⟩ := t
    simp only at hx
    rw [hx, toList_text_number]
    exact characters_lexical x
  · refine ⟨?_, hlexeme.all⟩
    obtain ⟨c, others, htext, -⟩ := hlexeme.first
    simp [htext]

/-- The text of a token is a lexeme, and what it is read as has the shape of the token. -/
structure Spelled (t : Token) : Prop where
  lexeme : IsLexeme t.text.toList
  shape : ∀ u, Reads t.text.toList u → u.shape = t.shape

theorem spelled_of_number {x : Float} {position : Nat}
    (h : (Lexeme.number x).Positional) : Spelled ⟨.number x, position⟩ := by
  obtain ⟨⟨q, hnumeral⟩, hwritten⟩ := characters_numeralValue h
  obtain ⟨first, rest, hw, -⟩ := hnumeral.first
  rw [hw] at hnumeral hwritten
  have htext : (Token.text ⟨.number x, position⟩).toList = first :: rest := by
    rw [toList_text_number, hw]
  constructor
  · rw [htext]
    exact .numeral hnumeral
  · intro u hu
    rw [htext] at hu
    cases hu
    rw [lexeme_of_numeral hnumeral]
    simp [Token.shape, Token.kind, Token.text, Lexeme.kind, Lexeme.text, Decimal.Layout.render,
      hwritten, hw]

theorem ReadFrom.spelled {cs : List Char} {t : Token} (h : ReadFrom cs t)
    (hpositional : t.lexeme.Positional) : Spelled t := by
  rcases h.number_or_reads with ⟨x, hx⟩ | ⟨hlexeme, hread⟩
  · obtain ⟨lexeme, position⟩ := t
    simp only at hx
    rw [hx] at hpositional ⊢
    exact spelled_of_number hpositional
  · refine ⟨hlexeme, ?_⟩
    intro u hu
    generalize t.text.toList = w at hread hu
    cases hread
    cases hu
    rfl

theorem shapes_of_reads {ts us : List Token} (hts : ∀ t ∈ ts, Spelled t)
    (h : List.Forall₂ Reads (ts.map fun t => t.text.toList) us) :
    us.map Token.shape = ts.map Token.shape := by
  rw [List.forall₂_map_left_iff] at h
  induction h with
  | nil => rfl
  | cons hread _ ih =>
    rw [List.map_cons, List.map_cons, (hts _ (by simp)).shape _ hread,
      ih fun t ht => hts t (by simp [ht])]

end Scan

open Scan

/-! ### The normalized text -/

def Token.words (ts : List Token) : List (List Char) :=
  ts.map fun t => t.text.toList

theorem toList_normalized (ts : List Token) :
    (normalized ts).toList = [' '].intercalate (words ts) := by
  rw [normalized, words, String.toList_intercalate, List.map_map]
  rfl

theorem normalized_of_shapes {ts us : List Token} (h : us.map shape = ts.map shape) :
    normalized us = normalized ts := by
  have htexts := congrArg (List.map Prod.snd) h
  rw [List.map_map, List.map_map] at htexts
  exact congrArg (String.intercalate " ") htexts

theorem tokenize_normalized_eq {cs : List Char} {ts : List Token} (hts : ∀ t ∈ ts, ReadFrom cs t)
    {limit : Int} (hlimit : (normalized ts).toList.length ≤ limit) (mode : LexMode) :
    tokenize mode limit (normalized ts) = tokens mode 0 0 ([' '].intercalate (words ts)) := by
  have hwords : ∀ w ∈ words ts, ∀ c ∈ w, Lexical c := by
    intro w hw
    obtain ⟨t, ht, rfl⟩ := List.mem_map.mp hw
    exact (hts t ht).lexical.2
  unfold tokenize
  rw [if_neg (by omega), toList_normalized, lower_intercalate hwords]

/-- The normalized text of tokens without exponents is scanned to tokens of the same shapes. -/
theorem tokenize_normalized {cs : List Char} {ts : List Token} (hts : ∀ t ∈ ts, ReadFrom cs t)
    (hpositional : ∀ t ∈ ts, t.lexeme.Positional) {limit : Int}
    (hlimit : (normalized ts).toList.length ≤ limit) (mode : LexMode) :
    ∃ us, tokenize mode limit (normalized ts) = .ok us ∧ us.map shape = ts.map shape := by
  have hspelled : ∀ t ∈ ts, Spelled t := fun t ht => (hts t ht).spelled (hpositional t ht)
  have hwords : ∀ w ∈ words ts, IsLexeme w := by
    intro w hw
    obtain ⟨t, ht, rfl⟩ := List.mem_map.mp hw
    exact (hspelled t ht).lexeme
  obtain ⟨us, hus, hreads⟩ := tokens_intercalate mode 0 hwords
  rw [tokenize_normalized_eq hts hlimit, hus]
  exact ⟨us, rfl, shapes_of_reads hspelled hreads⟩

theorem words_of_normalized {cs ds : List Char} {ts us : List Token}
    (hts : ∀ t ∈ ts, ReadFrom cs t) (hus : ∀ u ∈ us, ReadFrom ds u) (hsome : ts ≠ [])
    (hsome' : us ≠ []) (h : normalized us = normalized ts) : words us = words ts := by
  have hsplit {ds : List Char} {ts : List Token} (hts : ∀ t ∈ ts, ReadFrom ds t)
      (hsome : ts ≠ []) : ([' '].intercalate (words ts)).splitOn ' ' = words ts := by
    refine List.splitOn_intercalate ' ' ?_ (by simpa [words] using hsome)
    intro w hw hblank
    obtain ⟨t, ht, rfl⟩ := List.mem_map.mp hw
    have := ((hts t ht).lexical.2 ' ' hblank).not_isBlank
    cases this
  rw [← hsplit hts hsome, ← hsplit hus hsome', ← toList_normalized, ← toList_normalized, h]

theorem Derives.known {level : Level} {ts : List Token} {e : Expr} (h : Derives level ts e) :
    ∀ t ∈ ts, ∀ name, t.lexeme = .function name → ∃ f : Function, name = f.name := by
  induction h with
  | ofProduct h ih | ofFactor h ih | ofPower h ih | ofAtom h ih => exact ih
  | sum op position level left right ihl ihr | product op position level left right ihl ihr
  | power position left right ihl ihr =>
    rw [List.forall_mem_append, List.forall_mem_cons]
    exact ⟨ihl, nofun, ihr⟩
  | implicit left right ihl ihr =>
    rw [List.forall_mem_append]
    exact ⟨ihl, ihr⟩
  | neg position operand ih =>
    rw [List.forall_mem_cons]
    exact ⟨nofun, ih⟩
  | number value position | var position =>
    rw [List.forall_mem_singleton]
    exact nofun
  | call f name opening closing argument ih =>
    rw [List.forall_mem_cons, List.forall_mem_cons, List.forall_mem_append,
      List.forall_mem_singleton]
    refine ⟨?_, nofun, ih, nofun⟩
    rintro name' hname
    exact ⟨f, by cases hname; rfl⟩
  | group opening closing inside ih =>
    rw [List.forall_mem_cons, List.forall_mem_append, List.forall_mem_singleton]
    exact ⟨nofun, ih, nofun⟩

theorem exists_of_forall₂ {α β : Type} {R : α → β → Prop} {as : List α} {bs : List β}
    (h : List.Forall₂ R as bs) : ∀ a ∈ as, ∃ b ∈ bs, R a b := by
  induction h with
  | nil => simp
  | cons hab _ ih =>
    intro a ha
    rcases List.mem_cons.mp ha with rfl | ha
    · exact ⟨_, by simp, hab⟩
    · obtain ⟨b, hb, hr⟩ := ih a ha
      exact ⟨b, by simp [hb], hr⟩

theorem not_known {w : List Char} (hw : w = ['n', 'a', 'n'] ∨ w = ['i', 'n', 'f']) {u : Token}
    (hread : Reads w u) :
    ∃ name, u.lexeme = .function name ∧ ∀ f : Function, name ≠ f.name := by
  rcases hw with rfl | rfl
  · cases hread
    refine ⟨"nan", rfl, ?_⟩
    intro f
    cases f <;> decide
  · cases hread
    refine ⟨"inf", rfl, ?_⟩
    intro f
    cases f <;> decide

/-- Where the normalized text is scanned to an expression with the same normalized text, no number
was written with an exponent: that would be scanned to several tokens. -/
theorem positional_of_normalized {cs : List Char} {ts us : List Token} {e : Expr} {limit : Int}
    (hts : ∀ t ∈ ts, ReadFrom cs t) (hsome : ts ≠ [])
    (hlimit : (normalized ts).toList.length ≤ limit)
    (hus : tokenize .strict limit (normalized ts) = .ok us) (he : Derives .sum us e)
    (h : normalized us = normalized ts) : ∀ t ∈ ts, t.lexeme.Positional := by
  have hwords : words us = words ts :=
    words_of_normalized hts (readFrom_of_tokenize hus).2 hsome he.ne_nil h
  have hsolid : ∀ w ∈ words ts, w ≠ [] ∧ ∀ c ∈ w, Lexical c := by
    intro w hw
    obtain ⟨t, ht, rfl⟩ := List.mem_map.mp hw
    exact (hts t ht).lexical
  have hcount : us.length = (words ts).length := by
    rw [← hwords, words, List.length_map]
  rw [tokenize_normalized_eq hts hlimit] at hus
  have hreads := (reads_of_tokens hsolid hus).2 hcount.le
  intro t ht
  obtain ⟨lexeme, position⟩ := t
  cases lexeme with
  | var | function | operator | leftParen | rightParen => trivial
  | number x =>
    obtain ⟨u, hu, hlexeme, hread⟩ :=
      exists_of_forall₂ hreads _ (List.mem_map.mpr ⟨_, ht, rfl⟩)
    rw [toList_text_number] at hlexeme hread
    rcases positional_of_isLexeme hlexeme with hpositional | hword
    · exact hpositional
    · obtain ⟨name, hname, hnone⟩ := not_known hword hread
      obtain ⟨f, hf⟩ := he.known u hu name hname
      exact absurd hf (hnone f)

namespace Summary

theorem ofText_eq_ok {mode : LexMode} {limit : Int} {text : String} {s : Summary} :
    ofText mode limit text = .ok s ↔
      ∃ e, tokenize mode limit text = .ok s.tokens ∧ Derives .sum s.tokens e ∧
        s.program = ⟨e.instructions, Text.strip Text.isBlank text⟩ := by
  unfold ofText
  constructor
  · intro h
    split at h
    · cases h
    · rename_i ts hts
      rw [Program.compile_eq, hts] at h
      simp only at h
      split at h
      · cases h
      · rename_i p hp
        split at hp
        · cases hp
        · rename_i hprogram
          cases hp
          cases h
          obtain ⟨e, he, hlisting⟩ :=
            Program.derives_of_ofTokens (wellFormed_of_tokenize hts) hprogram
          exact ⟨e, hts, he, hlisting⟩
  · rintro ⟨e, hts, he, hprogram⟩
    rw [Program.compile_eq, hts]
    simp only [Program.ofTokens_of_derives he, ← hprogram]

theorem text_eq_of_shapes {e e' : Expr} {source source' : String}
    (h : e'.instructions.map Instruction.text = e.instructions.map Instruction.text) :
    Program.text ⟨e'.instructions, source'⟩ = Program.text ⟨e.instructions, source⟩ :=
  congrArg (String.intercalate " ") h

/-- The normalized text of a summary, within the length limit, has a summary with the same listing
and the same normalized text if and only if no number is written with an exponent or as an
infinity. -/
theorem ofText_normalized {mode : LexMode} {limit : Int} {text : String} {s : Summary}
    (h : ofText mode limit text = .ok s) {limit' : Int}
    (hlimit : s.normalized.toList.length ≤ limit') :
    (∃ s', ofText .strict limit' s.normalized = .ok s' ∧ s'.program.text = s.program.text ∧
      s'.normalized = s.normalized) ↔ ∀ t ∈ s.tokens, t.lexeme.Positional := by
  obtain ⟨e, hts, he, hprogram⟩ := ofText_eq_ok.mp h
  have hread := (readFrom_of_tokenize hts).2
  constructor
  · rintro ⟨s', h', -, hsame⟩
    obtain ⟨e', hus, he', -⟩ := ofText_eq_ok.mp h'
    exact positional_of_normalized hread he.ne_nil hlimit hus he' hsame
  · intro hpositional
    obtain ⟨us, hus, hshapes⟩ := tokenize_normalized hread hpositional hlimit .strict
    obtain ⟨e', he', htext⟩ := he.of_shape hshapes
    refine ⟨⟨us, ⟨e'.instructions, _⟩⟩, ofText_eq_ok.mpr ⟨e', hus, he', rfl⟩, ?_, ?_⟩
    · rw [hprogram]
      exact text_eq_of_shapes htext
    · exact normalized_of_shapes hshapes

/-- `PI x`, with a character that the scan passes over: its normalized text `3.14159265359 x` is
another number times `x`, with the same summary. -/
theorem ofText_normalized_pi :
    ∃ s s', ofText .lenient 256 "PI x #" = .ok s ∧ s.normalized = "3.14159265359 x" ∧
      ofText .strict 256 s.normalized = .ok s' ∧ s'.program.text = s.program.text ∧
      s'.normalized = s.normalized := by
  have hpi : (Decimal.Layout.twelve.characters (Float.ofBits 0x400921FB54442D18)).all
      Scan.startsNumeral = true := by
    decide +kernel
  obtain ⟨s, hs, hnormalized, hpositional⟩ : ∃ s, ofText .lenient 256 "PI x #" = .ok s ∧
      s.normalized = "3.14159265359 x" ∧ ∀ t ∈ s.tokens, t.lexeme.Positional := by
    refine ⟨⟨[⟨.number (Float.ofBits 0x400921FB54442D18), 0⟩, ⟨.var, 3⟩],
      ⟨[.const (Float.ofBits 0x400921FB54442D18), .var, .apply (.binary .mul)], "PI x #"⟩⟩,
      rfl, by decide +kernel, ?_⟩
    intro t ht
    simp only [List.mem_cons, List.not_mem_nil, or_false] at ht
    rcases ht with rfl | rfl
    · exact List.all_eq_true.mp hpi
    · trivial
  have hlimit : s.normalized.toList.length ≤ (256 : Int) := by
    rw [hnormalized]
    decide
  obtain ⟨s', hs', htext, hsame⟩ := (ofText_normalized hs hlimit).mpr hpositional
  exact ⟨s, s', hs, hnormalized, hs', htext, hsame⟩

/-- Twelve digits write `.00001` with an exponent, and this is scanned to a difference of a product
and a number. -/
theorem ofText_normalized_small :
    ∃ s, ofText .strict 256 ".00001" = .ok s ∧ s.normalized = "1e-05" ∧
      s.normalized.toList.length ≤ 256 ∧
      ¬ ∃ s', ofText .strict 256 s.normalized = .ok s' ∧ s'.program.text = s.program.text ∧
        s'.normalized = s.normalized := by
  obtain ⟨s, hs, hnormalized⟩ : ∃ s, ofText .strict 256 ".00001" = .ok s ∧
      s.normalized = "1e-05" := by
    refine ⟨⟨[⟨.number (Scan.numeralValue ".00001".toList), 0⟩],
      ⟨[.const (Scan.numeralValue ".00001".toList)], ".00001"⟩⟩, rfl, ?_⟩
    decide +kernel
  have hagain : (ofText .strict 256 "1e-05").toOption.map normalized =
      some "1 2.71828182846 - 5" := by
    decide +kernel
  refine ⟨s, hs, hnormalized, by rw [hnormalized]; decide, ?_⟩
  rw [hnormalized]
  rintro ⟨s', hs', -, hsame⟩
  rw [hs'] at hagain
  have hother : s'.normalized = "1 2.71828182846 - 5" := Option.some.inj hagain
  rw [hsame] at hother
  exact absurd hother (by decide)

end Summary
end CurveSketch
