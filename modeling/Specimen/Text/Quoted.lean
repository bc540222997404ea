import Specimen.Text.Hidden
import Specimen.Text.Utf8

/-!
# Quoted text

Messages show a name that was refused between double quotes. Inside,
the quote, the backslash and the four common controls have a short
escape, any other character that does not show is written as its code
point, and all else stands for itself. The name of a program is quoted
from its bytes, and stray bytes are written as numbers.
-/

namespace Specimen

/-- The digits of a number in base sixteen, in lower case. -/
def hexDigits (n : Nat) : String := String.ofList (Nat.toDigits 16 n)

/-- How one character is written inside quotes. -/
def quotedChar (c : Char) : String :=
  if c == '"' then "\\\""
  else if c == '\\' then "\\\\"
  else if c == '\t' then "\\t"
  else if c == '\n' then "\\n"
  else if c == '\r' then "\\r"
  else if c == '\x00' then "\\0"
  else if isHidden c then "\\u\x7b" ++ hexDigits c.toNat ++ "\x7d"
  else c.toString

/-- **A text between quotes**, every character of it visible. -/
def quoted (text : String) : String :=
  "\"" ++ String.join (text.toList.map quotedChar) ++ "\""

/-- How a stray byte is written inside quotes. -/
def quotedByte (b : UInt8) : String :=
  let digits := (hexDigits b.toNat).map Char.toUpper
  "\\x" ++ (if digits.length < 2 then "0" else "") ++ digits

/-- How a part of a byte sequence is written inside quotes. -/
def Utf8Part.quoted : Utf8Part → String
  | char c => quotedChar c
  | stray bytes => String.join (bytes.map quotedByte)

/-- **Bytes between quotes.** -/
def quotedBytes (bytes : List UInt8) : String :=
  "\"" ++ String.join ((utf8Parts bytes).map Utf8Part.quoted) ++ "\""

end Specimen
