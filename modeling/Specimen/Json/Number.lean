import Specimen.Json.Basic

/-!
# Reading a number

A number's text is a sign, a whole part without leading zeros, a
fraction and a power of ten, the last two optional. Digits are gathered
into a 64-bit **significand** as long as they fit: a whole digit that
does not fit raises the power of ten instead, and a fraction digit that
does not fit is dropped. What has neither fraction nor power and fits is
an integer; all else is the significand scaled in double arithmetic, in
steps of at most `10^308`.
-/

namespace Specimen.Json.Number

/-- The parts of a number's text. -/
structure Parts where
  /-- Whether a minus sign stands in front. -/
  negative : Bool
  /-- The digits before the point. -/
  whole : List Nat
  /-- The digits behind the point, none if there is no point. -/
  fraction : List Nat
  /-- The power of ten, if one is written. -/
  power : Option Int

/-- The value of a digit. -/
def digit (c : Char) : Nat := c.toNat - '0'.toNat

/-- A text's leading digits, at least one, and what follows them. -/
def digits? (text : List Char) : Option (List Nat × List Char) :=
  match text.takeWhile Char.isDigit with
  | [] => none
  | ds => some (ds.map digit, text.dropWhile Char.isDigit)

/-- The number that digits write. -/
def ofDigits (ds : List Nat) : Nat := ds.foldl (fun n d => n * 10 + d) 0

/-- The whole part: a zero stands alone. -/
def whole? (text : List Char) : Option (List Nat × List Char) := do
  let (ds, rest) ← digits? text
  if ds.head? == some 0 && 1 < ds.length then none else some (ds, rest)

/-- The fraction, if a point follows. -/
def fraction? : List Char → Option (List Nat × List Char)
  | '.' :: rest => digits? rest
  | rest => some ([], rest)

/-- The power of ten, if one follows; it ends the text. -/
def power? : List Char → Option (Option Int)
  | [] => some none
  | c :: rest =>
    if c == 'e' || c == 'E' then
      let (negative, rest) := match rest with
        | '-' :: rest => (true, rest)
        | '+' :: rest => (false, rest)
        | rest => (false, rest)
      match digits? rest with
      | some (ds, []) => some (some (if negative then -(ofDigits ds : Int) else ofDigits ds))
      | _ => none
    else none

/-- **The parts of a text that is a number.** -/
def Parts.ofText? (text : List Char) : Option Parts := do
  let (negative, text) := match text with
    | '-' :: rest => (true, rest)
    | rest => (false, rest)
  let (whole, text) ← whole? text
  let (fraction, text) ← fraction? text
  let power ← power? text
  some ⟨negative, whole, fraction, power⟩

/-- Appends digits to a significand while it fits 64 bits; the digits
left over begin with the first that does not fit. -/
def absorb (significand : Nat) : List Nat → Nat × List Nat
  | [] => (significand, [])
  | d :: rest =>
    if significand * 10 + d < wordCount then absorb (significand * 10 + d) rest
    else (significand, d :: rest)

/-- Divides by `10^power`, in steps that stay in the range of doubles. -/
def scaleDown (x : Float) (power : Nat) : Float :=
  if power ≤ 308 then x / Float.ofScientific 1 false power
  else if x == 0 then x
  else scaleDown (x / Float.ofScientific 1 false 308) (power - 308)
termination_by power

/-- Multiplies by `10^power`; a result out of range is refused. -/
def scaleUp? (x : Float) (power : Nat) : Option Float :=
  if power ≤ 308 then
    let y := x * Float.ofScientific 1 false power
    if y.isInf then none else some y
  else if x == 0 then some x
  else none

/-- A significand times a power of ten, as a double. -/
def scaled? (significand : Nat) : Int → Option Float
  | .ofNat power => scaleUp? (UInt64.ofNat significand).toFloat power
  | .negSucc n => some (scaleDown (UInt64.ofNat significand).toFloat (n + 1))

/-- The double of parts that are no integer. A written power beyond 32
bits makes the number zero or puts it out of range. -/
def Parts.real? (p : Parts) : Option Float := do
  let (high, excess) := absorb 0 p.whole
  let (significand, dropped) := absorb high p.fraction
  let shift : Int := excess.length - (p.fraction.length - dropped.length : Nat)
  let power := p.power.getD 0
  let x ←
    if power.natAbs < 2147483648 then scaled? significand (shift + power)
    else if significand != 0 && 0 < power then none
    else some 0
  some (if p.negative then -x else x)

/-- The integer of parts that write one in range. Minus zero is none. -/
def Parts.integer? (p : Parts) : Option Int :=
  if p.fraction.isEmpty && p.power.isNone then
    let n := ofDigits p.whole
    if p.negative then
      if 0 < n && n ≤ halfWordCount then some (-(n : Int)) else none
    else if n < wordCount then some n
    else none
  else none

/-- **The number a text writes.** -/
def ofText? (text : List Char) : Option Number := do
  let p ← Parts.ofText? text
  match p.integer? with
  | some i => some (.integer i)
  | none => (p.real?).map .real

end Specimen.Json.Number
