import CurveSketch.Proofs.Casing
import CurveSketch.Service.Routes
import Mathlib.Data.List.Basic

/-!
# CurveSketch.Proofs.Documents

Every text can be sent. Between quotes, with quotes, backslashes and control characters escaped, a
text is read back as it was (`Value.readText_quoted`), whatever other characters it has: a document
that begins in ASCII is read as the characters that it has. So there is a body that asks for the
expression, for every text (`Application.bodyValue_expressionBody`).
-/

namespace CurveSketch

/-! ### The characters of a document -/

namespace Text

theorem toList_loop (bytes : ByteArray) (i : Nat) (done : List UInt8) :
    ByteArray.toList.loop bytes i done = done.reverse ++ bytes.data.toList.drop i := by
  induction i, done using ByteArray.toList.loop.induct bytes with
  | case1 i done hi ih =>
    have hlength : i < bytes.data.toList.length := hi
    have hbyte : bytes.get! i = bytes.data.toList[i] := getElem!_pos bytes.data i hi
    rw [ByteArray.toList.loop, if_pos hi, ih, List.drop_eq_getElem_cons hlength, hbyte,
      List.reverse_cons, List.append_assoc, List.singleton_append]
  | case2 i done hi =>
    have hlength : bytes.data.toList.length ≤ i := Nat.not_lt.mp hi
    rw [ByteArray.toList.loop, if_neg hi, List.drop_of_length_le hlength, List.append_nil]

theorem toUTF8_ofList_append (cs rest : List Char) :
    (String.ofList (cs ++ rest)).toUTF8.toList =
      cs.utf8Encode.data.toList ++ rest.utf8Encode.data.toList := by
  rw [ByteArray.toList, toList_loop, String.toUTF8, String.toByteArray_ofList,
    List.utf8Encode_append, ByteArray.toList_data_append]
  rfl

theorem decode?_ofList (rest : List Char) :
    decode? (String.ofList (['\x7b', '"', 'e', 'x'] ++ rest)) =
      some (['\x7b', '"', 'e', 'x'] ++ rest) := by
  have hbytes : ['\x7b', '"', 'e', 'x'].utf8Encode.data.toList = [0x7B, 0x22, 0x65, 0x78] := by
    decide
  rw [decode?, toUTF8_ofList_append, hbytes]
  simp only [Encoding.ofBytes, List.cons_append, List.nil_append, String.toList_ofList]
  rfl

end Text

namespace Value

/-- A character as it may stand between quotes. -/
def quotedChar (c : Char) : List Char :=
  if c = '"' ∨ c = '\\' then ['\\', c]
  else if c.toNat < 0x20 then
    ['\\', 'u', '0', '0', Nat.digitChar (c.toNat / 16), Nat.digitChar (c.toNat % 16)]
  else [c]

theorem hexDigit?_digitChar : ∀ n < 16, hexDigit? (Nat.digitChar n) = some n := by
  decide

theorem hexQuad?_control {n : Nat} (hn : n < 0x20) (rest : List Char) :
    hexQuad? ('0' :: '0' :: Nat.digitChar (n / 16) :: Nat.digitChar (n % 16) :: rest) =
      some (n, rest) := by
  have hzero : hexDigit? '0' = some 0 := by decide
  have hvalue : ((0 * 16 + 0) * 16 + n / 16) * 16 + n % 16 = n := by omega
  simp only [hexQuad?, hzero, hexDigit?_digitChar (n / 16) (by omega),
    hexDigit?_digitChar (n % 16) (by omega), hvalue]

theorem readText_quotedChar (c : Char) (done rest : List Char) (fuel : Nat) :
    readText (fuel + 1) true done (quotedChar c ++ rest) = readText fuel true (c :: done) rest := by
  unfold quotedChar
  split
  · rename_i hc
    rcases hc with rfl | rfl <;> rfl
  · rename_i hc
    split
    · rename_i hcontrol
      have hunit : Text.isHighSurrogate c.toNat = false := by
        simp only [Text.isHighSurrogate, Bool.and_eq_false_iff, decide_eq_false_iff_not]
        omega
      have hchar : Text.charOf? c.toNat = some c := by
        have hvalid : c.toNat.isValidChar := c.valid
        rw [Text.charOf?, if_pos hvalid, Char.ofNat_toNat]
      simp only [List.cons_append, List.nil_append, readText, hexQuad?_control hcontrol, escaped,
        hunit, hchar, Bool.false_eq_true, if_false, Option.isSome_some, Bool.and_true,
        Option.getD_some]
    · rename_i hplain
      rw [not_or] at hc
      rw [List.singleton_append, readText]
      · rw [if_neg hplain]
      · exact hc.1
      · intro rest' heq
        exact absurd heq hc.2
      · intro c' rest' heq
        exact absurd heq hc.2

/-- A text between quotes is read back. -/
theorem readText_quoted (cs done rest : List Char) {fuel : Nat} (h : cs.length < fuel) :
    readText fuel true done (cs.flatMap quotedChar ++ '"' :: rest) =
      some (⟨String.ofList (done.reverse ++ cs), true⟩, rest) := by
  induction cs generalizing done fuel with
  | nil =>
    cases fuel with
    | zero => cases h
    | succ fuel => simp [readText]
  | cons c cs ih =>
    cases fuel with
    | zero => cases h
    | succ fuel =>
      rw [List.flatMap_cons, List.append_assoc, readText_quotedChar,
        ih (c :: done) (Nat.lt_of_succ_lt_succ h), List.reverse_cons, List.append_assoc,
        List.singleton_append]

/-- The text between quotes, in front of other characters. -/
def quotedText (text : String) (rest : List Char) : List Char :=
  '"' :: (text.toList.flatMap quotedChar ++ '"' :: rest)

theorem length_le_length_flatMap (cs : List Char) :
    cs.length ≤ (cs.flatMap quotedChar).length := by
  induction cs with
  | nil => exact Nat.le_refl 0
  | cons c cs ih =>
    have hone : 1 ≤ (quotedChar c).length := by
      unfold quotedChar
      split
      · exact Nat.le_add_left 1 1
      · split <;> simp
    rw [List.flatMap_cons, List.length_append, List.length_cons]
    omega

theorem readText_quotedText (text : String) (rest : List Char) :
    readText ((text.toList.flatMap quotedChar ++ '"' :: rest).length + 1) true []
        (text.toList.flatMap quotedChar ++ '"' :: rest) = some (⟨text, true⟩, rest) := by
  have hlength := length_le_length_flatMap text.toList
  rw [readText_quoted _ _ _ (by rw [List.length_append]; omega), List.reverse_nil,
    List.nil_append, String.ofList_toList]

theorem readValue_quotedText (fuel depth : Nat) (text : String) (rest : List Char) :
    readValue (fuel + 1) depth (quotedText text rest) = .ok (Value.text text, rest) := by
  simp only [readValue, quotedText, readText_quotedText, ofSpelling, if_true]

def fieldDocument (name text : String) : List Char :=
  '\x7b' :: quotedText name (':' :: ' ' :: quotedText text ['\x7d'])

theorem readFields_quotedText (fuel depth : Nat) (name text : String) :
    readFields (fuel + 2) depth true []
        (quotedText name (':' :: ' ' :: quotedText text ['\x7d'])) =
      .ok (.object [(name, .text text)], []) := by
  have hcolon : skipGap (':' :: ' ' :: quotedText text ['\x7d']) =
      ':' :: ' ' :: quotedText text ['\x7d'] := rfl
  have hspace : skipGap (' ' :: quotedText text ['\x7d']) = quotedText text ['\x7d'] := rfl
  rw [quotedText, readFields]
  simp only [readText_quotedText, hcolon, hspace, readValue_quotedText]
  rfl

theorem ofCharacters_fieldDocument (name text : String) :
    ofCharacters (fieldDocument name text) = .ok (.object [(name, .text text)]) := by
  obtain ⟨fuel, hfuel⟩ : ∃ fuel, 2 * (fieldDocument name text).length + 2 = fuel + 3 := by
    refine ⟨2 * (fieldDocument name text).length - 1, ?_⟩
    have : 0 < (fieldDocument name text).length := Nat.succ_pos _
    omega
  have hvalue : readValue (fuel + 3) depthLimit (fieldDocument name text) =
      .ok (.object [(name, .text text)], []) := by
    have hfields := readFields_quotedText fuel (depthLimit - 1) name text
    rw [fieldDocument]
    unfold readValue
    exact hfields
  have hgap : skipGap (fieldDocument name text) = fieldDocument name text := rfl
  rw [ofCharacters, hfuel, hgap, hvalue]
  rfl

end Value

namespace Application

/-- The body that asks for an expression and for nothing else. -/
def expressionBody (text : String) : String :=
  String.ofList (Value.fieldDocument "expression" text)

theorem ofDocument_expressionBody (text : String) :
    Value.ofDocument (expressionBody text) = .ok (.object [("expression", .text text)]) := by
  have hcharacters : Value.charactersOf? (expressionBody text) =
      some (Value.fieldDocument "expression" text) := by
    rw [Value.charactersOf?, expressionBody, String.toList_ofList]
    exact Text.decode?_ofList _
  rw [Value.ofDocument, hcharacters]
  exact Value.ofCharacters_fieldDocument "expression" text

theorem isDocument_json : isDocument "application/json" = true := by
  have hlower : Text.lower "application/json".toList = "application/json".toList :=
    Text.lower_eq_self (by simp)
  have hmedia : mediaType "application/json" = "application/json" := by
    show String.ofList (Text.lower "application/json".toList) = _
    rw [hlower]
    rfl
  rw [isDocument, hmedia]
  rfl

/-- For every text there is a body that the service reads as a request for it. -/
theorem bodyValue_expressionBody (method path : String) (text : String) :
    bodyValue ⟨method, path, "application/json", some (expressionBody text)⟩ =
      .ok (.object [("expression", .text text)]) := by
  simp only [bodyValue, isDocument_json, if_true, ofDocument_expressionBody]
  rfl

end Application
end CurveSketch
