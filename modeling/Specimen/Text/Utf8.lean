/-!
# Lenient UTF-8

Bytes that a program wrote are shown as text whatever they are. They are
cut into characters and **stray** parts: a maximal part that begins a
character without completing one is stray, and so is a byte that begins
none. A stray part is shown as one replacement character U+FFFD.

The decoder is a machine that is fed one byte at a time. Its only memory
beside what it has cut off is the character that is open, so a byte that
continues nothing closes the open character in the same way as the end
of the input does.
-/

namespace Specimen

/-- The character shown for bytes that form none. -/
def replacementChar : Char := '\ufffd'

/-- **A part of a byte sequence**, as far as characters go. -/
inductive Utf8Part where
  /-- A character. -/
  | char (c : Char)
  /-- Bytes that form none. -/
  | stray (bytes : List UInt8)

/-- The character that a part is shown as. -/
def Utf8Part.shown : Utf8Part → Char
  | char c => c
  | stray _ => replacementChar

/-- A character of which some bytes are still to come. -/
structure OpenChar where
  /-- The code point's bits so far. -/
  bits : Nat
  /-- How many bytes are missing, at least one. -/
  missing : Nat
  /-- The least value the next byte may have. -/
  low : UInt8
  /-- The greatest value the next byte may have. -/
  high : UInt8
  /-- The bytes so far, latest first. -/
  bytes : List UInt8

/-- What a byte does where a character begins. -/
inductive LeadByte where
  /-- It is a character by itself. -/
  | single (c : Char)
  /-- It opens a longer one. -/
  | opening (o : OpenChar)
  /-- It begins none. -/
  | invalid

/-- **The reading of a first byte.** The bounds on the second byte keep
out overlong forms, surrogates and code points above U+10FFFF. -/
def LeadByte.ofByte (b : UInt8) : LeadByte :=
  if b < 0x80 then .single (Char.ofNat b.toNat)
  else if b < 0xc2 then .invalid
  else if b < 0xe0 then .opening ⟨b.toNat - 0xc0, 1, 0x80, 0xbf, [b]⟩
  else if b == 0xe0 then .opening ⟨0, 2, 0xa0, 0xbf, [b]⟩
  else if b == 0xed then .opening ⟨0xd, 2, 0x80, 0x9f, [b]⟩
  else if b < 0xf0 then .opening ⟨b.toNat - 0xe0, 2, 0x80, 0xbf, [b]⟩
  else if b == 0xf0 then .opening ⟨0, 3, 0x90, 0xbf, [b]⟩
  else if b < 0xf4 then .opening ⟨b.toNat - 0xf0, 3, 0x80, 0xbf, [b]⟩
  else if b == 0xf4 then .opening ⟨4, 3, 0x80, 0x8f, [b]⟩
  else .invalid

/-- **The decoder**: the parts cut off so far, latest first, and the
character that is open. -/
structure Utf8Decoder where
  /-- The parts so far, the latest first. -/
  parts : List Utf8Part
  /-- The character begun and not completed. -/
  pending : Option OpenChar

namespace Utf8Decoder

/-- The decoder before the first byte. -/
def start : Utf8Decoder := ⟨[], none⟩

/-- Reads a byte where a character begins. -/
def lead (parts : List Utf8Part) (b : UInt8) : Utf8Decoder :=
  match LeadByte.ofByte b with
  | .single c => ⟨.char c :: parts, none⟩
  | .opening o => ⟨parts, some o⟩
  | .invalid => ⟨.stray [b] :: parts, none⟩

/-- Reads one byte. -/
def feed (d : Utf8Decoder) (b : UInt8) : Utf8Decoder :=
  match d.pending with
  | none => lead d.parts b
  | some o =>
    if o.low ≤ b && b ≤ o.high then
      let bits := o.bits * 64 + (b.toNat - 0x80)
      if o.missing ≤ 1 then ⟨.char (Char.ofNat bits) :: d.parts, none⟩
      else ⟨d.parts, some ⟨bits, o.missing - 1, 0x80, 0xbf, b :: o.bytes⟩⟩
    else lead (.stray o.bytes.reverse :: d.parts) b

/-- The parts once no more bytes come. -/
def finish (d : Utf8Decoder) : List Utf8Part :=
  match d.pending with
  | none => d.parts.reverse
  | some o => (.stray o.bytes.reverse :: d.parts).reverse

end Utf8Decoder

/-- **The parts of a byte sequence**: characters and stray bytes, in
order. -/
def utf8Parts (bytes : List UInt8) : List Utf8Part :=
  (bytes.foldl Utf8Decoder.feed .start).finish

/-- **The characters that bytes show**, with U+FFFD for what is no
character. -/
def lenientChars (bytes : List UInt8) : List Char := (utf8Parts bytes).map Utf8Part.shown

/-- The text that bytes show. -/
def lenientText (bytes : List UInt8) : String := String.ofList (lenientChars bytes)

/-- The bytes of a text. -/
def utf8Bytes (text : String) : List UInt8 := text.toUTF8.toList

/-- The text that bytes encode, if they encode one. -/
def strictText? (bytes : List UInt8) : Option String :=
  ((utf8Parts bytes).mapM fun (p : Utf8Part) =>
    match p with
    | .char c => some c
    | .stray _ => none).map String.ofList

example : lenientChars [0x61, 0xe2, 0x82, 0xac, 0xff] = ['a', '€', replacementChar] := by decide

/-- A truncated character and what follows it are told apart. -/
example : lenientChars [0xf0, 0x9f, 0x0a, 0xed, 0xa0] =
    [replacementChar, '\n', replacementChar, replacementChar] := by decide

end Specimen
