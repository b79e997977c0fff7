import CurveSketch.Proofs.Difference
import CurveSketch.Proofs.Writing
import CurveSketch.Settings

/-!
# CurveSketch.Proofs.Configuration

What the settings of a configuration are. The four numbers are one reading with four keys
(`numberFields`), and `Settings.Gives` says what it gives: the default where no number stands, and
otherwise the number cut off towards zero and raised to 1. The mode is the one whose name the value
is written as (`Settings.GivesMode`). Two things stop the reading: a mode that cannot be written
(`Value.Fits`) and a number out of range (`Value.OutOfRange`). Without them there are settings, each
field set by the value of its own key (`ofValue_gives`). An infinite width is out of range
(`ofValue_infinite`).
-/

namespace CurveSketch
namespace Decimal

open Float.Model (UnpackedFloat)

theorem isNaN_iff (x : Float) : x.isNaN = true ↔ Decoded.ofFloat x = .nan := by
  show x.toModel.unpack.isNaN = true ↔ _
  rw [Decoded.ofFloat_eq]
  cases x.toModel.unpack <;> simp [UnpackedFloat.isNaN, Decoded.ofUnpacked]

theorem truncate?_cases (x : Float) :
    (∃ n, truncate? x = some n) ∨ truncate? x = none ∧ x.isNaN = true ∨
      ∃ negative, Decoded.ofFloat x = .infinite negative := by
  rw [isNaN_iff]
  unfold truncate?
  cases Decoded.ofFloat x with
  | nan => exact .inr (.inl ⟨rfl, rfl⟩)
  | infinite negative => exact .inr (.inr ⟨negative, rfl⟩)
  | finite negative m e => exact .inl ⟨_, rfl⟩

theorem truncate?_of_infinite {x : Float} {negative : Bool}
    (h : Decoded.ofFloat x = .infinite negative) : truncate? x = none ∧ x.isNaN = false := by
  rw [Bool.eq_false_iff, Ne, isNaN_iff, h]
  exact ⟨by simp [truncate?, h], by simp⟩

end Decimal

/-- A number that no whole number comes of: a whole number beyond the doubles, or an infinity. -/
inductive Value.OutOfRange (v : Value) : Prop where
  | tooLarge (read : v.toReal = .error .tooLarge)
  | infinite {x : Float} {negative : Bool} (read : v.toReal = .ok x)
      (decoded : Decimal.Decoded.ofFloat x = .infinite negative)

namespace Settings

/-- What a number is set to by the value that stands under its key. -/
inductive Gives (fallback : Nat) : Option Value → Nat → Prop where
  | missing : Gives fallback none fallback
  | unreadable {v : Value} {fault : RealFault} (read : v.toReal = .error fault)
      (small : fault ≠ .tooLarge) : Gives fallback (some v) fallback
  | notANumber {v : Value} {x : Float} (read : v.toReal = .ok x) (nan : x.isNaN = true) :
      Gives fallback (some v) fallback
  | number {v : Value} {x : Float} {n : Int} (read : v.toReal = .ok x)
      (whole : Decimal.truncate? x = some n) : Gives fallback (some v) (max n 1).toNat

theorem Gives.pos {fallback n : Nat} {v : Option Value} (h : Gives fallback v n)
    (hfallback : 1 ≤ fallback) : 1 ≤ n := by
  cases h with
  | missing => exact hfallback
  | unreadable read small => exact hfallback
  | notANumber read nan => exact hfallback
  | number read whole => omega

/-- Nothing and `null` are read like any other value that is no number. -/
theorem positive_some (v : Value) (fallback : Nat) :
    positive (some v) fallback =
      match v.toWhole with
      | .ok n => .ok (max n 1).toNat
      | .error fault => if fault.isOverflow then .error (.number fault) else .ok fallback := by
  cases v <;> rfl

theorem positive_of_outOfRange {v : Value} (h : v.OutOfRange) (fallback : Nat) :
    ∃ fault, positive (some v) fallback = .error (.number fault) := by
  cases h with
  | tooLarge read =>
    refine ⟨.real .tooLarge, ?_⟩
    simp [positive_some, Value.toWhole, read, WholeFault.isOverflow]
  | infinite read decoded =>
    obtain ⟨hnone, hnan⟩ := Decimal.truncate?_of_infinite decoded
    refine ⟨.infinite, ?_⟩
    simp only [positive_some, Value.toWhole, read, Value.wholeOfReal, hnone, hnan]
    rfl

theorem positive_of_inRange {v : Option Value} (h : ∀ w ∈ v, ¬ w.OutOfRange) (fallback : Nat) :
    ∃ n, positive v fallback = .ok n ∧ Gives fallback v n := by
  cases v with
  | none => exact ⟨fallback, rfl, .missing⟩
  | some w =>
    have hw : ¬ w.OutOfRange := h w rfl
    rw [positive_some]
    cases read : w.toReal with
    | error fault =>
      have hsmall : fault ≠ .tooLarge := by
        rintro rfl
        exact hw (.tooLarge read)
      have hover : (WholeFault.real fault).isOverflow = false := by
        cases fault with
        | tooLarge => exact absurd rfl hsmall
        | notNumeric kind => rfl
        | unreadable text => rfl
      exact ⟨fallback, by simp [Value.toWhole, read, hover], .unreadable read hsmall⟩
    | ok x =>
      rcases Decimal.truncate?_cases x with ⟨n, hwhole⟩ | ⟨hnone, hnan⟩ | ⟨negative, hinfinite⟩
      · exact ⟨_, by simp [Value.toWhole, read, Value.wholeOfReal, hwhole], .number read hwhole⟩
      · refine ⟨fallback, ?_, .notANumber read hnan⟩
        simp only [Value.toWhole, read, Value.wholeOfReal, hnone, hnan]
        rfl
      · exact absurd (.infinite read hinfinite) hw

theorem exists_positive_iff {v : Option Value} {fallback : Nat} :
    (∃ n, positive v fallback = .ok n) ↔ ∀ w ∈ v, ¬ w.OutOfRange := by
  constructor
  · rintro ⟨n, hn⟩ w hw hout
    obtain ⟨fault, hfault⟩ := positive_of_outOfRange hout fallback
    rw [Option.mem_def] at hw
    rw [hw, hfault] at hn
    cases hn
  · intro h
    obtain ⟨n, hn, -⟩ := positive_of_inRange h fallback
    exact ⟨n, hn⟩

theorem gives_of_positive {v : Option Value} {fallback n : Nat}
    (h : positive v fallback = .ok n) : Gives fallback v n := by
  obtain ⟨m, hm, hgives⟩ := positive_of_inRange (exists_positive_iff.mp ⟨n, h⟩) fallback
  rw [h] at hm
  cases hm
  exact hgives

/-- The text is the name of the mode in any case, with blanks around it. -/
def Names (name : String) (mode : LexMode) : Prop :=
  String.ofList (Text.lower (Text.trim Text.isBlank name.toList)) = mode.name

/-- What the mode is set to by the value that stands under its key. -/
inductive GivesMode : Option Value → LexMode → Prop where
  | missing : GivesMode none .strict
  | named {v : Value} {name : String} {mode : LexMode} (written : v.plain = .ok name)
      (names : Names name mode) : GivesMode (some v) mode
  | unnamed {v : Value} {name : String} (written : v.plain = .ok name)
      (other : ∀ mode, ¬ Names name mode) : GivesMode (some v) .strict

theorem givesMode_modeNamed {v : Value} {name : String} (written : v.plain = .ok name) :
    GivesMode (some v) (modeNamed name) := by
  unfold modeNamed
  cases h : LexMode.ofName? (String.ofList (Text.lower (Text.trim Text.isBlank name.toList))) with
  | some mode => exact .named written (LexMode.ofName?_eq_some.mp h)
  | none =>
    refine .unnamed written ?_
    intro mode hnames
    rw [LexMode.ofName?_eq_some.mpr hnames] at h
    cases h

theorem givesMode_of_lexModeOf {value : Option Value} {mode : LexMode}
    (h : lexModeOf value = .ok mode) : GivesMode value mode := by
  unfold lexModeOf at h
  split at h
  · cases h
    exact .missing
  · split at h
    · rename_i name hname
      cases h
      exact givesMode_modeNamed hname
    · cases h

theorem exists_lexModeOf_iff {value : Option Value} :
    (∃ mode, lexModeOf value = .ok mode) ↔ ∀ v ∈ value, v.Fits Value.depthLimit := by
  cases value with
  | none => simp [lexModeOf]
  | some v =>
    have hplain : (∃ mode, lexModeOf (some v) = .ok mode) ↔ ∃ name, v.plain = .ok name := by
      cases h : v.plain <;> simp [lexModeOf, h]
    simp [hplain, Value.exists_plain_iff]

/-- A number of the configuration: the key that it stands under, and the field that it sets. -/
structure NumberField where
  key : String
  get : Settings → Nat

def numberFields : List NumberField := [
  ⟨"max_expression_length", maxExpressionLength⟩,
  ⟨"max_width", maxWidth⟩,
  ⟨"max_height", maxHeight⟩,
  ⟨"sample_workers", sampleWorkers⟩]

theorem one_le_default {f : NumberField} (hf : f ∈ numberFields) : 1 ≤ f.get default := by
  simp only [numberFields, List.mem_cons, List.not_mem_nil, or_false] at hf
  rcases hf with rfl | rfl | rfl | rfl <;> decide

section Fields

variable {fields : List (String × Value)} {s : Settings}

theorem ofFields_eq_ok : ofFields fields = .ok s ↔
    lexModeOf (Value.lookup? "lex_mode" fields) = .ok s.lexMode ∧
      ∀ f ∈ numberFields,
        positive (Value.lookup? f.key fields) (f.get default) = .ok (f.get s) := by
  simp only [numberFields, List.forall_mem_cons, List.not_mem_nil, false_imp_iff, implies_true,
    and_true]
  unfold ofFields
  constructor
  · intro h
    split at h
    · cases h
    · rename_i hmode
      split at h
      · cases h
      · rename_i hlength
        split at h
        · cases h
        · rename_i hwidth
          split at h
          · cases h
          · rename_i hheight
            split at h
            · cases h
            · rename_i hworkers
              cases h
              exact ⟨hmode, hlength, hwidth, hheight, hworkers⟩
  · rintro ⟨hmode, hlength, hwidth, hheight, hworkers⟩
    rw [hmode, hlength, hwidth, hheight, hworkers]

theorem exists_ofFields_iff : (∃ s, ofFields fields = .ok s) ↔
    (∃ mode, lexModeOf (Value.lookup? "lex_mode" fields) = .ok mode) ∧
      ∀ f ∈ numberFields, ∃ n, positive (Value.lookup? f.key fields) (f.get default) = .ok n := by
  constructor
  · rintro ⟨s, hs⟩
    obtain ⟨hmode, hnumbers⟩ := ofFields_eq_ok.mp hs
    exact ⟨⟨s.lexMode, hmode⟩, fun f hf => ⟨f.get s, hnumbers f hf⟩⟩
  · rintro ⟨⟨mode, hmode⟩, h⟩
    simp only [numberFields, List.forall_mem_cons, List.not_mem_nil, false_imp_iff, implies_true,
      and_true] at h
    obtain ⟨⟨length, hlength⟩, ⟨width, hwidth⟩, ⟨height, hheight⟩, ⟨workers, hworkers⟩⟩ := h
    refine ⟨⟨length, mode, width, height, workers⟩, ?_⟩
    unfold ofFields
    rw [hmode, hlength, hwidth, hheight, hworkers]

theorem ofValue_object (fields : List (String × Value)) :
    ofValue (.object fields) = ofFields fields := by
  cases fields <;> rfl

theorem ofValue_brokenObject (fields : List (String × Value)) :
    ofValue (.brokenObject fields) = ofFields fields :=
  rfl

/-- A configuration is read unless its mode cannot be written or one of its numbers is out of range.
Then the mode is the one that is named or strict, and every number is at least 1 and is what the
value of its key gives, so two configurations that agree on a key agree on its field. -/
theorem ofValue_gives (fields : List (String × Value)) :
    ((∃ s, ofValue (.object fields) = .ok s) ↔
      (∀ v ∈ Value.lookup? "lex_mode" fields, v.Fits Value.depthLimit) ∧
        ∀ f ∈ numberFields, ∀ v ∈ Value.lookup? f.key fields, ¬ v.OutOfRange) ∧
    ofValue (.brokenObject fields) = ofValue (.object fields) ∧
    ∀ s, ofValue (.object fields) = .ok s →
      ((s.lexMode = .strict ∨ s.lexMode = .lenient) ∧
        GivesMode (Value.lookup? "lex_mode" fields) s.lexMode) ∧
      (∀ f ∈ numberFields, 1 ≤ f.get s ∧
        Gives (f.get default) (Value.lookup? f.key fields) (f.get s)) ∧
      ∀ others s', ofValue (.object others) = .ok s' →
        (Value.lookup? "lex_mode" fields = Value.lookup? "lex_mode" others →
          s.lexMode = s'.lexMode) ∧
        ∀ f ∈ numberFields, Value.lookup? f.key fields = Value.lookup? f.key others →
          f.get s = f.get s' := by
  have hrange : (∃ s, ofFields fields = .ok s) ↔
      (∀ v ∈ Value.lookup? "lex_mode" fields, v.Fits Value.depthLimit) ∧
        ∀ f ∈ numberFields, ∀ v ∈ Value.lookup? f.key fields, ¬ v.OutOfRange := by
    simp only [exists_ofFields_iff, exists_lexModeOf_iff, exists_positive_iff]
  simp only [ofValue_object, ofValue_brokenObject]
  refine ⟨hrange, trivial, ?_⟩
  intro s hs
  obtain ⟨hmode, hread⟩ := ofFields_eq_ok.mp hs
  refine ⟨⟨?_, givesMode_of_lexModeOf hmode⟩, ?_, ?_⟩
  · cases s.lexMode with
    | strict => exact .inl rfl
    | lenient => exact .inr rfl
  · intro f hf
    have hgives := gives_of_positive (hread f hf)
    exact ⟨hgives.pos (one_le_default hf), hgives⟩
  · intro others s' hs'
    obtain ⟨hmode', hread'⟩ := ofFields_eq_ok.mp hs'
    refine ⟨?_, ?_⟩
    · intro hsame
      rw [hsame, hmode'] at hmode
      exact (Except.ok.inj hmode).symm
    · intro f hf hsame
      have hn := hread f hf
      rw [hsame, hread' f hf] at hn
      exact (Except.ok.inj hn).symm

end Fields

/-- An infinite number stops the reading of a configuration instead of being replaced. -/
theorem ofValue_infinite :
    ¬ ∃ s, ofValue (.object [("max_width", .real Decimal.infinity)]) = .ok s := by
  rintro ⟨s, hs⟩
  have hfault : ofValue (.object [("max_width", .real Decimal.infinity)]) =
      .error (.number .infinite) := rfl
  rw [hfault] at hs
  cases hs

end Settings
end CurveSketch
