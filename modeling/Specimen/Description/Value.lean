import Specimen.Failure

/-!
# Values as documents

A value is written as a document made of integers and arrays, and such a
document is read back as the value. Any other document is refused for
the first thing in it, from the left, that is neither an array nor an
integer of 32 bits.
-/

namespace Specimen

/-- The integer of a number. Integers beyond 64 bits with sign count as
no integers. -/
def Json.Number.int32 : Json.Number → Except DescriptionFault Int32
  | .integer i =>
    if Json.halfWordCount ≤ i then .error (.notInteger (.integer i))
    else if Int32.minValue.toInt ≤ i ∧ i ≤ Int32.maxValue.toInt then .ok (Int32.ofInt i)
    else .error (.outOfRange i)
  | n => .error (.notInteger n)

namespace Value

mutual

/-- **The value of a document.** -/
def ofJson : Json → Except DescriptionFault Value
  | .number n => (n.int32).map .int
  | .array items => (ofJsonItems items).map .tuple
  | .null => .error (.notValue .null)
  | .bool b => .error (.notValue (.bool b))
  | .string s => .error (.notValue (.string s))
  | .object members => .error (.notValue (.object members))

/-- The values of documents, the first fault of which counts. -/
def ofJsonItems : List Json → Except DescriptionFault (List Value)
  | [] => .ok []
  | j :: rest => do
    let v ← ofJson j
    let vs ← ofJsonItems rest
    pure (v :: vs)

end

mutual

/-- **The document of a value.** -/
def toJson : Value → Json
  | .int n => .ofInt n.toInt
  | .tuple items => .array (toJsonItems items)

/-- The documents of values. -/
def toJsonItems : List Value → List Json
  | [] => []
  | v :: rest => toJson v :: toJsonItems rest

end

@[simp] theorem toJsonItems_eq_map (items : List Value) :
    toJsonItems items = items.map toJson := by
  induction items with
  | nil => rfl
  | cons v rest ih => simp [toJsonItems, ih]

end Value

end Specimen
