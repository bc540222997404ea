import Specimen.Json.Basic
import Specimen.Decimal.Shortest
import Specimen.Text.Quoted

/-!
# Printing a document

Documents are printed without white space, members in the order they
are held. A double is printed by its shortest decimal; the decisions
about its notation are in one place (`Number.realNotation`).
-/

namespace Specimen.Json

/-- **A notation for decimals**: which of them are written without a
power of ten. -/
structure DecimalNotation where
  /-- The least exponent of a leading digit that is written
  positionally. -/
  leastPositional : Int
  /-- The first exponent of a leading digit that is no longer written
  positionally. -/
  firstScientific : Int
  /-- The text in front of a non-negative exponent. -/
  plus : String

/-- Doubles are positional from `10^-5` up to below `10^16`, always with
a point, and carry a signed power of ten outside. -/
def Number.realNotation : DecimalNotation := ⟨-5, 16, "+"⟩

/-- A point after the first digits of a text. -/
def pointAfter (n : Nat) (digits : List Char) : String :=
  String.ofList (digits.take n) ++ "." ++ String.ofList (digits.drop n)

/-- The text of a positive decimal. -/
def DecimalNotation.print (style : DecimalNotation) (d : Decimal) : String :=
  let d := d.trimmed
  let digits := Nat.toDigits 10 d.digits
  let leading : Int := d.exponent + digits.length - 1
  if style.leastPositional ≤ leading && leading < style.firstScientific then
    if leading < 0 then
      "0." ++ String.ofList (List.replicate (-leading - 1).toNat '0') ++ String.ofList digits
    else if 0 ≤ d.exponent then
      String.ofList digits ++ String.ofList (List.replicate d.exponent.toNat '0') ++ ".0"
    else pointAfter (leading + 1).toNat digits
  else
    let mantissa := if digits.length ≤ 1 then String.ofList digits else pointAfter 1 digits
    mantissa ++ "e" ++ (if leading < 0 then "-" else style.plus) ++ toString leading.natAbs

/-- The text of a double. -/
def Number.printReal (x : Float) : String :=
  let bits := x.toBits
  let sign := if bits < 0x8000000000000000 then "" else "-"
  let magnitude := BinaryFraction.ofBits bits
  sign ++ (if magnitude.mantissa == 0 then "0.0" else realNotation.print magnitude.shortest)

/-- **The text of a number.** -/
def Number.print : Number → String
  | .integer i => toString i
  | .real x => printReal x

/-- A code point below `0x10000` in four hexadecimal digits. -/
def fourHexDigits (n : Nat) : String :=
  let digits := hexDigits n
  String.ofList (List.replicate (4 - digits.length) '0') ++ digits

/-- How a character is written inside a text. -/
def printChar (c : Char) : String :=
  if c == '"' then "\\\""
  else if c == '\\' then "\\\\"
  else if c == '\x08' then "\\b"
  else if c == '\x0c' then "\\f"
  else if c == '\n' then "\\n"
  else if c == '\r' then "\\r"
  else if c == '\t' then "\\t"
  else if c.toNat < 0x20 then "\\u" ++ fourHexDigits c.toNat
  else c.toString

/-- The text of a text. -/
def printString (s : String) : String :=
  s.foldl (fun out c => out ++ printChar c) "\"" ++ "\""

mutual

/-- **The text of a document**, without white space. -/
def print : Json → String
  | .null => "null"
  | .bool true => "true"
  | .bool false => "false"
  | .number n => n.print
  | .string s => printString s
  | .array items => "[" ++ ",".intercalate (printItems items) ++ "]"
  | .object members => "\x7b" ++ ",".intercalate (printMembers members) ++ "\x7d"

/-- The texts of documents. -/
def printItems : List Json → List String
  | [] => []
  | j :: rest => print j :: printItems rest

/-- The texts of members. -/
def printMembers : List Member → List String
  | [] => []
  | ⟨name, value⟩ :: rest => (printString name ++ ":" ++ print value) :: printMembers rest

end

end Specimen.Json
