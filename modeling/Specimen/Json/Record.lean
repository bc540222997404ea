import Specimen.Json.Basic

/-!
# Records and variants

Two ways of writing structured data as a document are fixed here. A
**record** with given field names is an object whose members are some
of the fields, each once, or an array of the first few of them in
order. A **variant** is a bare name, or an object with a single member
whose name says which variant it is.

What is inside a document is smaller than it, and the readings of this
module say so (`Json.Part`): whoever reads a document by its parts comes
to an end.
-/

namespace Specimen.Json

/-- **A document inside another.** -/
abbrev Part (j : Json) := { v : Json // sizeOf v < sizeOf j }

/-- The items of an array. -/
def items? : (j : Json) → Option (List (Part j))
  | .array items => some (items.attach.map fun v =>
      ⟨v.1, by have := List.sizeOf_lt_of_mem v.2; simp; omega⟩)
  | _ => none

/-- The members of an object, with their names. -/
def members? : (j : Json) → Option (List (String × Part j))
  | .object members => some (members.attach.map fun m =>
      (m.1.name, ⟨m.1.value, by
        obtain ⟨⟨name, value⟩, h⟩ := m
        have := List.sizeOf_lt_of_mem h
        simp at *; omega⟩))
  | _ => none

/-- Whether no name occurs twice. -/
def distinctNames : List String → Bool
  | [] => true
  | n :: rest => !rest.contains n && distinctNames rest

/-- **The fields of a record**, one entry for each of the given names:
an object has no other members and none of them twice, an array has no
more items than there are names. -/
def record? (names : List String) (j : Json) : Option (List (Option (Part j))) :=
  match j.members?, j.items? with
  | some members, _ =>
    let written := members.map Prod.fst
    if written.all names.contains && distinctNames written then
      some (names.map fun n => (members.find? (·.1 == n)).map Prod.snd)
    else none
  | none, some items =>
    if items.length ≤ names.length then
      some (items.map some ++ List.replicate (names.length - items.length) none)
    else none
  | none, none => none

/-- **The variant of a document**, with what it holds. -/
def variant? (j : Json) : Option (String × Option (Part j)) :=
  match j with
  | .string name => some (name, none)
  | j =>
    match j.members? with
    | some [(name, v)] => some (name, some v)
    | _ => none

/-- Whether a document is `null`. -/
def isNull : Json → Bool
  | .null => true
  | _ => false

/-- A field that may be left out, or be `null`. -/
def present {j : Json} : Option (Part j) → Option (Part j)
  | some v => if v.1.isNull then none else some v
  | none => none

/-- The text that a document is. -/
def text? : Json → Option String
  | .string s => some s
  | _ => none

/-- The 32-bit integer that a document is. A double is none, whatever
its value. -/
def int32? : Json → Option Int32
  | .number (.integer i) =>
    if Int32.minValue.toInt ≤ i && i ≤ Int32.maxValue.toInt then some (Int32.ofInt i) else none
  | _ => none

/-- A text that may be left out: nothing, or the text. -/
def optionalText? {j : Json} (v : Option (Part j)) : Option (Option String) :=
  match present v with
  | none => some none
  | some v => v.1.text?.map some

end Specimen.Json
