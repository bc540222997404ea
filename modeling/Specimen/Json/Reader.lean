import Specimen.Json.Number

/-!
# Reading a document

Reading goes in two passes, neither of which can run forever. A **scan**
over the characters cuts the text into tokens: brackets, separators,
texts, and bare words such as `null` and `-1.5`. A **stack** of the
arrays and objects that are open then takes the tokens one at a time,
and the document is complete when one value has been read and nothing
is open. How many may be open at once is bounded by the caller.
-/

namespace Specimen.Json

/-! ## Tokens -/

/-- **A token** of a document. -/
inductive Token where
  /-- An opening brace. -/
  | openObject
  /-- A closing brace. -/
  | closeObject
  /-- An opening bracket. -/
  | openArray
  /-- A closing bracket. -/
  | closeArray
  /-- A colon. -/
  | colon
  /-- A comma. -/
  | comma
  /-- A text, escapes resolved. -/
  | text (s : String)
  /-- A document that is one word: a number, a truth value or `null`. -/
  | word (value : Json)

/-- Where a scan stands between two characters. Characters of an
unfinished token are kept latest first. -/
inductive ScanMode where
  /-- Between tokens. -/
  | between
  /-- In a bare word. -/
  | word (chars : List Char)
  /-- In a text. -/
  | text (chars : List Char)
  /-- In a text, behind a backslash. -/
  | escape (chars : List Char)
  /-- In a text, in the four digits of a UTF-16 unit; `high` is the
  leading surrogate before it, if one was read. -/
  | unit (chars : List Char) (high : Option Nat) (count value : Nat)
  /-- In a text, behind a leading surrogate; the flag says whether the
  backslash of its partner was read. -/
  | partner (chars : List Char) (high : Nat) (slash : Bool)

/-- A scan: the tokens so far, latest first, and where it stands. -/
structure Scan where
  /-- The tokens, the latest first. -/
  tokens : List Token
  /-- Where the scan stands. -/
  mode : ScanMode

/-- The value of a hexadecimal digit. -/
def hexDigit? (c : Char) : Option Nat :=
  if c.isDigit then some (c.toNat - '0'.toNat)
  else if 'a' ≤ c && c ≤ 'f' then some (c.toNat - 'a'.toNat + 10)
  else if 'A' ≤ c && c ≤ 'F' then some (c.toNat - 'A'.toNat + 10)
  else none

/-- The document of a bare word. -/
def ofWord? (chars : List Char) : Option Json :=
  if chars == ['n', 'u', 'l', 'l'] then some .null
  else if chars == ['t', 'r', 'u', 'e'] then some (.bool true)
  else if chars == ['f', 'a', 'l', 's', 'e'] then some (.bool false)
  else (Number.ofText? chars).map .number

/-- The white space of JSON. -/
def isSpace (c : Char) : Bool := c == ' ' || c == '\n' || c == '\t' || c == '\r'

/-- The token of a bracket or separator. -/
def punctuation? (c : Char) : Option Token :=
  if c == '\x7b' then some .openObject
  else if c == '\x7d' then some .closeObject
  else if c == '[' then some .openArray
  else if c == ']' then some .closeArray
  else if c == ':' then some .colon
  else if c == ',' then some .comma
  else none

/-- The character a one-letter escape stands for. -/
def escaped? (c : Char) : Option Char :=
  if c == '"' || c == '\\' || c == '/' then some c
  else if c == 'b' then some '\x08'
  else if c == 'f' then some '\x0c'
  else if c == 'n' then some '\n'
  else if c == 'r' then some '\r'
  else if c == 't' then some '\t'
  else none

/-- What a complete UTF-16 unit in a text leads to: a leading surrogate
waits for its partner, and no other surrogate may stand alone. -/
def closeUnit? (chars : List Char) (high : Option Nat) (value : Nat) : Option ScanMode :=
  match high with
  | none =>
    if 0xd800 ≤ value && value < 0xdc00 then some (.partner chars value false)
    else if 0xdc00 ≤ value && value < 0xe000 then none
    else some (.text (Char.ofNat value :: chars))
  | some h =>
    if 0xdc00 ≤ value && value < 0xe000 then
      some (.text (Char.ofNat (0x10000 + (h - 0xd800) * 0x400 + (value - 0xdc00)) :: chars))
    else none

namespace Scan

/-- The scan before the first character. -/
def start : Scan := ⟨[], .between⟩

/-- Reads a character where no token is open. -/
def between? (tokens : List Token) (c : Char) : Option Scan :=
  if isSpace c then some ⟨tokens, .between⟩
  else if c == '"' then some ⟨tokens, .text []⟩
  else match punctuation? c with
    | some t => some ⟨t :: tokens, .between⟩
    | none => some ⟨tokens, .word [c]⟩

/-- Reads one character. -/
def feed? (scan : Scan) (c : Char) : Option Scan :=
  match scan.mode with
  | .between => between? scan.tokens c
  | .word chars =>
    if isSpace c || c == '"' || (punctuation? c).isSome then do
      between? (.word (← ofWord? chars.reverse) :: scan.tokens) c
    else some ⟨scan.tokens, .word (c :: chars)⟩
  | .text chars =>
    if c == '"' then some ⟨.text (String.ofList chars.reverse) :: scan.tokens, .between⟩
    else if c == '\\' then some ⟨scan.tokens, .escape chars⟩
    else if c.toNat < 0x20 then none
    else some ⟨scan.tokens, .text (c :: chars)⟩
  | .escape chars =>
    if c == 'u' then some ⟨scan.tokens, .unit chars none 0 0⟩
    else (escaped? c).map fun d => ⟨scan.tokens, .text (d :: chars)⟩
  | .unit chars high count value => do
    let value := value * 16 + (← hexDigit? c)
    if count < 3 then some ⟨scan.tokens, .unit chars high (count + 1) value⟩
    else some ⟨scan.tokens, ← closeUnit? chars high value⟩
  | .partner chars high slash =>
    if slash then if c == 'u' then some ⟨scan.tokens, .unit chars (some high) 0 0⟩ else none
    else if c == '\\' then some ⟨scan.tokens, .partner chars high true⟩
    else none

/-- The tokens once no more characters come. -/
def finish? (scan : Scan) : Option (List Token) :=
  match scan.mode with
  | .between => some scan.tokens.reverse
  | .word chars => do some (.word (← ofWord? chars.reverse) :: scan.tokens).reverse
  | _ => none

end Scan

/-- **The tokens of a text.** -/
def tokens? (text : List Char) : Option (List Token) :=
  (text.foldlM Scan.feed? .start).bind Scan.finish?

/-! ## Documents -/

/-- **A container that is open**, with what it holds so far, latest
first. -/
inductive Frame where
  /-- An array. -/
  | array (items : List Json)
  /-- An object, and the name whose value comes next. -/
  | object (members : List Member) (name : String)

/-- What may come next while a document is read. -/
inductive Expectation where
  /-- A value. -/
  | value
  /-- A value or the end of an array just opened. -/
  | firstItem
  /-- A name or the end of an object just opened. -/
  | firstName (below : List Frame)
  /-- A name, behind a comma. -/
  | name (members : List Member)
  /-- The colon behind a name. -/
  | colon
  /-- A comma or the end of the innermost container; at the outermost
  level, the end of the document. -/
  | next (value : Json)

/-- A document being read: the open containers, innermost first, and
what may come next. -/
structure Reading where
  /-- The open containers, innermost first. -/
  frames : List Frame
  /-- What may come next. -/
  expects : Expectation

namespace Reading

/-- Nothing read yet. -/
def start : Reading := ⟨[], .value⟩

/-- Takes a token that begins a value. -/
def beginValue? (limit : Nat) (frames : List Frame) : Token → Option Reading
  | .text s => some ⟨frames, .next (.string s)⟩
  | .word v => some ⟨frames, .next v⟩
  | .openArray => if frames.length < limit then some ⟨.array [] :: frames, .firstItem⟩ else none
  | .openObject => if frames.length < limit then some ⟨frames, .firstName frames⟩ else none
  | _ => none

/-- Takes a token behind a complete value. -/
def continue? (value : Json) : List Frame → Token → Option Reading
  | .array items :: frames, .comma => some ⟨.array (value :: items) :: frames, .value⟩
  | .array items :: frames, .closeArray => some ⟨frames, .next (.array (value :: items).reverse)⟩
  | .object members name :: frames, .comma => some ⟨frames, .name (⟨name, value⟩ :: members)⟩
  | .object members name :: frames, .closeObject =>
    some ⟨frames, .next (.object (⟨name, value⟩ :: members).reverse)⟩
  | _, _ => none

/-- Takes one token. -/
def feed? (limit : Nat) (r : Reading) (t : Token) : Option Reading :=
  match r.expects with
  | .value => beginValue? limit r.frames t
  | .firstItem =>
    match r.frames, t with
    | .array _ :: frames, .closeArray => some ⟨frames, .next (.array [])⟩
    | frames, t => beginValue? limit frames t
  | .firstName below =>
    match t with
    | .text s => some ⟨.object [] s :: below, .colon⟩
    | .closeObject => some ⟨below, .next (.object [])⟩
    | _ => none
  | .name members =>
    match t with
    | .text s => some ⟨.object members s :: r.frames, .colon⟩
    | _ => none
  | .colon =>
    match t with
    | .colon => some ⟨r.frames, .value⟩
    | _ => none
  | .next value => continue? value r.frames t

/-- The document once no more tokens come. -/
def finish? (r : Reading) : Option Json :=
  match r.frames, r.expects with
  | [], .next value => some value
  | _, _ => none

end Reading

/-- **The document that a text writes**, if it writes one in which at
most `limit` arrays and objects are open at once. -/
def parse? (limit : Nat) (text : String) : Option Json := do
  let tokens ← tokens? text.toList
  let reading ← tokens.foldlM (Reading.feed? limit) .start
  reading.finish?

/-- How deep a document may nest. -/
def maxDepth : Nat := 127

end Specimen.Json
