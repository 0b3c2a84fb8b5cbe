import EvoRaster.Text.Quoted

/-!
Contract: whole numbers read from text.

Owns:
- the decimal digits and the blanks beyond ASCII;
- `readInteger`, which allows blanks around the number, one sign, and single underscores between digits.

A number of more than 4300 digits is refused before what follows it is looked at.
-/

namespace EvoRaster.Text

/-- The code points of the digits zero; the other nine digits follow each. -/
def zeroDigits : List Nat := [
    0x30, 0x660, 0x6F0, 0x7C0, 0x966, 0x9E6, 0xA66, 0xAE6, 0xB66, 0xBE6, 0xC66, 0xCE6, 0xD66,
    0xDE6, 0xE50, 0xED0, 0xF20, 0x1040, 0x1090, 0x17E0, 0x1810, 0x1946, 0x19D0, 0x1A80, 0x1A90,
    0x1B50, 0x1BB0, 0x1C40, 0x1C50, 0xA620, 0xA8D0, 0xA900, 0xA9D0, 0xA9F0, 0xAA50, 0xABF0, 0xFF10,
    0x104A0, 0x10D30, 0x11066, 0x110F0, 0x11136, 0x111D0, 0x112F0, 0x11450, 0x114D0, 0x11650,
    0x116C0, 0x11730, 0x118E0, 0x11950, 0x11C50, 0x11D50, 0x11DA0, 0x16A60, 0x16AC0, 0x16B50,
    0x1D7CE, 0x1D7D8, 0x1D7E2, 0x1D7EC, 0x1D7F6, 0x1E140, 0x1E2F0, 0x1E950, 0x1FBF0]

def digitValue? (c : Char) : Option Nat :=
  (zeroDigits.find? fun first => first ≤ c.toNat && c.toNat < first + 10).map (c.toNat - ·)

/-- The code points of the blanks that may stand around a number. -/
def blanks : List Nat := [
    0x9, 0xA, 0xB, 0xC, 0xD, 0x20, 0x85, 0xA0, 0x1680, 0x2000, 0x2001, 0x2002, 0x2003, 0x2004,
    0x2005, 0x2006, 0x2007, 0x2008, 0x2009, 0x200A, 0x2028, 0x2029, 0x202F, 0x205F, 0x3000]

def isBlank (c : Char) : Bool := blanks.contains c.toNat

def digitLimit : Nat := 4300

inductive NumeralError where
  | malformed (text : String)
  | tooLong (digits : Nat)
deriving DecidableEq, Repr

/-- The message shows at most two hundred characters of a quoted text. -/
def NumeralError.message : NumeralError → String
  | .malformed text =>
      "invalid literal for int() with base 10: " ++ String.ofList ((quoted text).take 200)
  | .tooLong digits =>
      s!"Exceeds the limit ({digitLimit} digits) for integer string conversion: value has {digits} digits; use sys.set_int_max_str_digits() to increase the limit"

/-- The digits at the start of a text and what follows them. An underscore may stand between two
digits. -/
def takeDigits : List Char → Option (List Nat × List Char)
  | [] => none
  | c :: rest =>
      match digitValue? c with
      | none => none
      | some digit =>
          match rest with
          | '_' :: rest => (takeDigits rest).map fun (digits, rest) => (digit :: digits, rest)
          | rest =>
              match takeDigits rest with
              | some (digits, rest) => some (digit :: digits, rest)
              | none => some ([digit], rest)

/-- The sign at the start of a text and what follows it. -/
def takeSign : List Char → Bool × List Char
  | '-' :: rest => (true, rest)
  | '+' :: rest => (false, rest)
  | rest => (false, rest)

/-- The whole number that a text spells. -/
def readInteger (text : String) : Except NumeralError Int :=
  let (negative, unsigned) := takeSign (text.toList.dropWhile isBlank)
  match takeDigits unsigned with
  | none => .error (.malformed text)
  | some (digits, rest) =>
      if digitLimit < digits.length then .error (.tooLong digits.length)
      else if rest.all isBlank then
        let magnitude : Nat := digits.foldl (fun value digit => value * 10 + digit) 0
        .ok (if negative then -(magnitude : Int) else magnitude)
      else .error (.malformed text)

end EvoRaster.Text
