/-!
# JSON documents

A run is described by a JSON document, and a value is printed as one. A
document keeps the members of an object in the order they were written,
doubles included, because whether a name occurs twice decides whether a
record is accepted; `Json.canonical` is the view in which an object is
a table.

A number is **held as an integer** when it was written as one and fits
64 bits, signed or unsigned, and as a double otherwise.
-/

namespace Specimen

/-- How many unsigned integers of 64 bits there are. -/
def Json.wordCount : Nat := 18446744073709551616

/-- How many of them are integers with sign as well. -/
def Json.halfWordCount : Nat := 9223372036854775808

/-- **The number of a document.** -/
inductive Json.Number where
  /-- An integer in the range of 64-bit words, signed or unsigned. -/
  | integer (i : Int)
  /-- Any other number. -/
  | real (x : Float)

mutual

/-- **A JSON document.** -/
inductive Json where
  /-- The word `null`. -/
  | null
  /-- A truth value. -/
  | bool (b : Bool)
  /-- A number. -/
  | number (n : Json.Number)
  /-- A text. -/
  | string (s : String)
  /-- A list of documents. -/
  | array (items : List Json)
  /-- Named documents, in the order they were written. -/
  | object (members : List Json.Member)

/-- **A member of an object**: a name and its document. -/
structure Json.Member where
  /-- The name. -/
  name : String
  /-- The document. -/
  value : Json

end

instance : Inhabited Json := ⟨.null⟩

namespace Json

/-- A document that is an integer. -/
def ofInt (i : Int) : Json := .number (.integer i)

/-- The value an object gives to a name: the last one written. -/
def Member.find? (name : String) : List Member → Option Json
  | [] => none
  | m :: rest =>
    match find? name rest with
    | some v => some v
    | none => if m.name == name then some m.value else none

/-- Puts a member into members sorted by name, in place of one of its
name. -/
def Member.insert (m : Member) : List Member → List Member
  | [] => [m]
  | n :: rest =>
    if m.name < n.name then m :: n :: rest
    else if m.name == n.name then m :: rest
    else n :: insert m rest

/-- The members sorted by name, the last of each name kept. -/
def Member.sorted (members : List Member) : List Member :=
  members.foldl (fun table m => insert m table) []

mutual

/-- **A document whose objects are tables**: at every depth the members
are sorted by name and each name occurs once, with the value written
last. -/
def canonical : Json → Json
  | .array items => .array (canonicalItems items)
  | .object members => .object (Member.sorted (canonicalMembers members))
  | .null => .null
  | .bool b => .bool b
  | .number n => .number n
  | .string s => .string s

/-- `canonical` on each document of a list. -/
def canonicalItems : List Json → List Json
  | [] => []
  | j :: rest => canonical j :: canonicalItems rest

/-- `canonical` on each member's document. -/
def canonicalMembers : List Member → List Member
  | [] => []
  | ⟨name, value⟩ :: rest => ⟨name, canonical value⟩ :: canonicalMembers rest

end

@[simp] theorem canonicalItems_eq_map (items : List Json) :
    canonicalItems items = items.map canonical := by
  induction items with
  | nil => rfl
  | cons j rest ih => simp [canonicalItems, ih]

end Json

end Specimen
