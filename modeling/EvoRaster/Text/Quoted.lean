import EvoRaster.Text.Unprintable

/-!
Contract: text between quotation marks, as error messages show it.

The marks are single unless the text holds a single mark and no double one. The backslash, the mark itself and
characters without a visible form are escaped, each by the shortest form that can name it.
-/

namespace EvoRaster.Text

/-- A code point in hexadecimal with at least `width` digits. -/
def hexadecimal (width codePoint : Nat) : List Char :=
  let digits := Nat.toDigits 16 codePoint
  List.replicate (width - digits.length) '0' ++ digits

def escape (mark c : Char) : List Char :=
  if c = mark ∨ c = '\\' then ['\\', c]
  else if c = '\t' then ['\\', 't']
  else if c = '\n' then ['\\', 'n']
  else if c = '\r' then ['\\', 'r']
  else if c.toNat < 0x20 ∨ c.toNat = 0x7F then '\\' :: 'x' :: hexadecimal 2 c.toNat
  else if c.toNat < 0x7F then [c]
  else if !isUnprintableBeyondAscii c then [c]
  else if c.toNat ≤ 0xFF then '\\' :: 'x' :: hexadecimal 2 c.toNat
  else if c.toNat ≤ 0xFFFF then '\\' :: 'u' :: hexadecimal 4 c.toNat
  else '\\' :: 'U' :: hexadecimal 8 c.toNat

def quoted (text : String) : List Char :=
  let content := text.toList
  let mark := if content.contains '\'' && !content.contains '"' then '"' else '\''
  mark :: content.flatMap (escape mark) ++ [mark]

end EvoRaster.Text
