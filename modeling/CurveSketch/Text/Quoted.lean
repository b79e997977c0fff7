import CurveSketch.Text.Printable

/-!
# CurveSketch.Text.Quoted

A text between quotes, as messages show it. The quote is `'` unless the text holds one and no
`"`. The backslash, the quote in use and every unprintable character are escaped, the latter by
the shortest of the forms with two, four and eight hexadecimal digits.
-/

namespace CurveSketch
namespace Text

/-- The number in lower-case hexadecimal, filled up with zeros to `width` digits. -/
def hex (width : Nat) (n : Nat) : String :=
  let digits := Nat.toDigits 16 n
  String.ofList (List.replicate (width - digits.length) '0' ++ digits)

def quoteFor (s : String) : Char :=
  if s.toList.contains '\'' && !s.toList.contains '"' then '"' else '\''

def quotedChar (quote : Char) (c : Char) : String :=
  if c == quote || c == '\\' then String.ofList ['\\', c]
  else if c == '\t' then "\\t"
  else if c == '\n' then "\\n"
  else if c == '\r' then "\\r"
  else if isPrintable c then String.ofList [c]
  else if c.toNat < 0x100 then "\\x" ++ hex 2 c.toNat
  else if c.toNat < 0x10000 then "\\u" ++ hex 4 c.toNat
  else "\\U" ++ hex 8 c.toNat

def quoted (s : String) : String :=
  let quote := quoteFor s
  let mark := String.ofList [quote]
  mark ++ String.join (s.toList.map (quotedChar quote)) ++ mark

end Text
end CurveSketch
