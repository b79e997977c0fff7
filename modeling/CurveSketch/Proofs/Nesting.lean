import CurveSketch.Value.Reader
import Mathlib.Data.List.Basic
import Mathlib.Data.List.Count
import Mathlib.Data.List.Infix

/-!
# CurveSketch.Proofs.Nesting

What a document must look like to be refused for its depth. Readers take characters from the front
and leave the others as they are, so every container that a value stands in was opened by a
character of its own (`Reads`): a document with at most `depthLimit` opening brackets and braces is
never too deep (`depthLimit_lt_openings`).
-/

namespace CurveSketch
namespace Value

/-! ### What is left is a suffix -/

theorem skipGap_suffix (cs : List Char) : skipGap cs <:+ cs := by
  induction cs with
  | nil => exact List.suffix_rfl
  | cons c rest ih =>
    unfold skipGap
    split
    · exact ih.trans (List.suffix_cons c rest)
    · exact List.suffix_rfl

theorem suffix_of_skipGap {cs tail : List Char} {c : Char} (h : skipGap cs = c :: tail) :
    tail <:+ cs :=
  ((List.suffix_cons c tail).trans (h ▸ skipGap_suffix cs))

theorem hexQuad?_suffix {cs tail : List Char} {unit : Nat} (h : hexQuad? cs = some (unit, tail)) :
    tail <:+ cs := by
  unfold hexQuad? at h
  split at h
  · rename_i a b c d rest
    split at h
    · cases h
      exact ⟨[a, b, c, d], rfl⟩
    · cases h
  · cases h

theorem lowSurrogate?_suffix {cs tail : List Char} {low : Nat}
    (h : lowSurrogate? cs = some (low, tail)) : tail <:+ cs := by
  unfold lowSurrogate? at h
  split at h
  · rename_i rest
    split at h
    · rename_i hquad
      split at h
      · cases h
        exact (hexQuad?_suffix hquad).trans ⟨['\\', 'u'], rfl⟩
      · cases h
    · cases h
  · cases h

theorem escaped_suffix (unit : Nat) (rest : List Char) : (escaped unit rest).2 <:+ rest := by
  unfold escaped
  split
  · rename_i hlow
    split at hlow
    · exact lowSurrogate?_suffix hlow
    · cases hlow
  · exact List.suffix_rfl

theorem readText_suffix {fuel : Nat} {whole : Bool} {done cs tail : List Char} {s : Spelling}
    (h : readText fuel whole done cs = some (s, tail)) : tail <:+ cs := by
  induction fuel generalizing whole done cs with
  | zero => cases h
  | succ fuel ih =>
    unfold readText at h
    split at h
    · cases h
    · cases h
      exact List.suffix_cons _ _
    · rename_i rest
      split at h
      · rename_i hquad
        exact (ih h).trans ((escaped_suffix _ _).trans
          ((hexQuad?_suffix hquad).trans ⟨['\\', 'u'], rfl⟩))
      · cases h
    · rename_i c rest _
      split at h
      · exact (ih h).trans ⟨['\\', c], rfl⟩
      · cases h
    · split at h
      · cases h
      · exact (ih h).trans (List.suffix_cons _ _)

theorem plainDigits_suffix (cs : List Char) : (plainDigits cs).2 <:+ cs :=
  List.dropWhile_suffix _

theorem takeSign_suffix (cs : List Char) : (Decimal.takeSign cs).2 <:+ cs := by
  unfold Decimal.takeSign
  split <;> first | exact List.suffix_cons _ _ | exact List.suffix_rfl

theorem exponent?_suffix {cs tail : List Char} {e : Int} (h : exponent? cs = some (e, tail)) :
    tail <:+ cs := by
  unfold exponent? at h
  split at h
  · rename_i c rest
    split at h
    · split at h
      rename_i negative body hsign
      have hbody := takeSign_suffix rest
      rw [hsign] at hbody
      split at h
      · cases h
      · rename_i hdigits
        cases h
        have hrest := plainDigits_suffix body
        rw [hdigits] at hrest
        exact hrest.trans (hbody.trans (List.suffix_cons c rest))
    · cases h
  · cases h

theorem fraction?_suffix {cs tail : List Char} {digits : List Nat}
    (h : fraction? cs = some (digits, tail)) : tail <:+ cs := by
  unfold fraction? at h
  split at h
  · rename_i rest
    split at h
    · cases h
    · rw [Option.some.injEq] at h
      have hrest := plainDigits_suffix rest
      rw [h] at hrest
      exact hrest.trans (List.suffix_cons '.' rest)
  · cases h

theorem wholeDigits?_suffix {cs tail : List Char} {digits : List Nat}
    (h : wholeDigits? cs = some (digits, tail)) : tail <:+ cs := by
  unfold wholeDigits? at h
  split at h
  · cases h
    exact List.suffix_cons '0' _
  · split at h
    · cases h
    · rw [Option.some.injEq] at h
      have hrest := plainDigits_suffix cs
      rwa [h] at hrest

theorem readNumber_suffix {negative : Bool} {cs tail : List Char} {v : Value}
    (h : readNumber negative cs = some (v, tail)) : tail <:+ cs := by
  unfold readNumber at h
  split at h
  · cases h
  · rename_i whole rest hwhole
    have hfraction : ((fraction? rest).getD ([], rest)).2 <:+ rest := by
      cases hfound : fraction? rest with
      | none => exact List.suffix_rfl
      | some found => exact fraction?_suffix hfound
    have hexponent : ∀ after : List Char, ((exponent? after).getD (0, after)).2 <:+ after := by
      intro after
      cases hpower : exponent? after with
      | none => exact List.suffix_rfl
      | some power => exact exponent?_suffix hpower
    have hall := (hexponent _).trans (hfraction.trans (wholeDigits?_suffix hwhole))
    simp only at h
    split at h
    · split at h
      · cases h
      · cases h
        exact hall
    · cases h
      exact hall

theorem afterWord?_suffix {word cs tail : List Char} (h : afterWord? word cs = some tail) :
    tail <:+ cs := by
  induction word generalizing cs with
  | nil =>
    cases h
    exact List.suffix_rfl
  | cons w word ih =>
    cases cs with
    | nil => cases h
    | cons c cs =>
      unfold afterWord? at h
      split at h
      · exact (ih h).trans (List.suffix_cons c cs)
      · cases h

theorem readWord?_suffix {cs tail : List Char} {v : Value} (h : readWord? cs = some (v, tail)) :
    tail <:+ cs := by
  obtain ⟨entry, -, hentry⟩ := List.exists_of_findSome?_eq_some h
  split at hentry
  · rename_i hword
    cases hentry
    exact afterWord?_suffix hword
  · cases hentry

/-! ### Depth -/

def isOpening (c : Char) : Bool :=
  c == '[' || c == '\x7b'

/-- What comes of characters with `depth` containers left to open: a value and a suffix of them, or
it is too deep and they open more containers than that. -/
def Reads (depth : Nat) (cs : List Char) : Except ReadFault (Value × List Char) → Prop
  | .ok (_, tail) => tail <:+ cs
  | .error (.tooDeep _) => depth < cs.countP isOpening
  | .error .malformed => True

theorem Reads.of_suffix {depth : Nat} {cs rest : List Char}
    {r : Except ReadFault (Value × List Char)} (h : Reads depth rest r) (hrest : rest <:+ cs) :
    Reads depth cs r := by
  match r, h with
  | .ok (_, tail), h => exact h.trans hrest
  | .error (.tooDeep _), h => exact Nat.lt_of_lt_of_le h (hrest.sublist.countP_le)
  | .error .malformed, _ => trivial

theorem Reads.inside {depth : Nat} {c : Char} {rest body : List Char}
    {r : Except ReadFault (Value × List Char)} (h : Reads depth body r) (hbody : body <:+ rest)
    (hc : isOpening c = true) : Reads (depth + 1) (c :: rest) r := by
  match r, h.of_suffix hbody with
  | .ok (_, tail), h => exact h.trans (List.suffix_cons c rest)
  | .error (.tooDeep _), h =>
    show depth + 1 < (c :: rest).countP isOpening
    rw [List.countP_cons_of_pos hc]
    exact Nat.succ_lt_succ h
  | .error .malformed, _ => trivial

theorem reads_orMalformed {depth : Nat} {cs : List Char} {found : Option (Value × List Char)}
    (h : ∀ v tail, found = some (v, tail) → tail <:+ cs) : Reads depth cs (orMalformed found) := by
  cases found with
  | none => trivial
  | some found => exact h _ _ rfl

/-- All readers keep to `Reads`. They call each other with one step fewer, so the induction is on
the steps and takes the three of them together. -/
theorem reads (fuel : Nat) :
    (∀ depth cs, Reads depth cs (readValue fuel depth cs)) ∧
    (∀ depth done cs, Reads depth cs (readItems fuel depth done cs)) ∧
    ∀ depth whole done cs, Reads depth cs (readFields fuel depth whole done cs) := by
  induction fuel with
  | zero => exact ⟨fun _ _ => trivial, fun _ _ _ => trivial, fun _ _ _ _ => trivial⟩
  | succ fuel ih =>
    obtain ⟨ihValue, ihItems, ihFields⟩ := ih
    refine ⟨?_, ?_, ?_⟩
    · intro depth cs
      unfold readValue
      split
      · trivial
      · rename_i rest
        split
        · rename_i htext
          exact (readText_suffix htext).trans (List.suffix_cons '"' rest)
        · trivial
      · rename_i rest
        split
        · exact List.countP_pos_iff.mpr ⟨'[', List.mem_cons_self, rfl⟩
        · rename_i depth
          split
          · rename_i htail
            exact (suffix_of_skipGap htail).trans (List.suffix_cons '[' rest)
          · exact (ihItems depth [] _).inside (skipGap_suffix rest) rfl
      · rename_i rest
        split
        · exact List.countP_pos_iff.mpr ⟨'\x7b', List.mem_cons_self, rfl⟩
        · rename_i depth
          split
          · rename_i htail
            exact (suffix_of_skipGap htail).trans (List.suffix_cons '\x7b' rest)
          · exact (ihFields depth true [] _).inside (skipGap_suffix rest) rfl
      · rename_i rest
        split
        · rename_i hword
          exact readWord?_suffix hword
        · refine reads_orMalformed ?_
          intro v tail hnumber
          exact (readNumber_suffix hnumber).trans (List.suffix_cons '-' rest)
      · refine reads_orMalformed ?_
        intro v tail hfound
        split at hfound
        · exact readNumber_suffix hfound
        · exact readWord?_suffix hfound
    · intro depth done cs
      unfold readItems
      have hvalue := ihValue depth cs
      split
      · rename_i hfault
        rwa [hfault] at hvalue
      · rename_i v tail hfound
        rw [hfound] at hvalue
        split
        · rename_i hclosed
          exact (suffix_of_skipGap hclosed).trans hvalue
        · rename_i hnext
          exact (ihItems depth (v :: done) _).of_suffix
            ((skipGap_suffix _).trans ((suffix_of_skipGap hnext).trans hvalue))
        · trivial
    · intro depth whole done cs
      unfold readFields
      split
      · rename_i rest
        split
        · trivial
        · rename_i name tail hname
          have hrest := (readText_suffix hname).trans (List.suffix_cons '"' rest)
          split
          · rename_i hcolon
            have hbody := (skipGap_suffix _).trans ((suffix_of_skipGap hcolon).trans hrest)
            have hvalue := (ihValue depth _).of_suffix hbody
            split
            · rename_i hfault
              rwa [hfault] at hvalue
            · rename_i v tail hfound
              rw [hfound] at hvalue
              split
              · rename_i hclosed
                exact (suffix_of_skipGap hclosed).trans hvalue
              · rename_i hnext
                exact (ihFields depth _ _ _).of_suffix
                  ((skipGap_suffix _).trans ((suffix_of_skipGap hnext).trans hvalue))
              · trivial
          · trivial
      · trivial

def openings (document : String) : Nat :=
  ((charactersOf? document).getD []).countP isOpening

theorem depthLimit_lt_openings {document : String} {container : Container}
    (h : ofDocument document = .error (.tooDeep container)) : depthLimit < openings document := by
  unfold ofDocument at h
  unfold openings
  split at h
  · rename_i cs hcs
    rw [hcs, Option.getD_some]
    unfold ofCharacters at h
    have hreads := (reads (2 * cs.length + 2)).1 depthLimit (skipGap cs)
    split at h
    · split at h <;> cases h
    · rename_i hfault
      cases h
      rw [hfault] at hreads
      exact Reads.of_suffix hreads (skipGap_suffix cs)
  · cases h

end Value
end CurveSketch
