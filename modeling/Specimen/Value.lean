/-!
# Values

What a generated program writes, and what is bound to a variable, is a
**value**: a 32-bit integer, or a tuple of values. A value has two
texts. `Value.display` is the one messages use; `Value.literal` is the
initializer a generated program uses. Both tell values apart.
-/

namespace Specimen

/-- **Values**: 32-bit integers and tuples. -/
inductive Value where
  /-- An integer. -/
  | int (n : Int32)
  /-- A tuple of values. -/
  | tuple (items : List Value)

namespace Value

instance : Inhabited Value := ⟨.int 0⟩

mutual

/-- Whether two values are the same. -/
def decEq : (v w : Value) → Decidable (v = w)
  | .int m, .int n => decidable_of_iff (m = n) (by simp)
  | .tuple xs, .tuple ys => have := decEqItems xs ys; decidable_of_iff (xs = ys) (by simp)
  | .int _, .tuple _ => isFalse nofun
  | .tuple _, .int _ => isFalse nofun

/-- Whether two lists of values are the same. -/
def decEqItems : (xs ys : List Value) → Decidable (xs = ys)
  | [], [] => isTrue rfl
  | x :: xs, y :: ys =>
    have := decEq x y
    have := decEqItems xs ys
    decidable_of_iff (x = y ∧ xs = ys) (by simp)
  | [], _ :: _ => isFalse nofun
  | _ :: _, [] => isFalse nofun

end

instance : DecidableEq Value := decEq

/-- The integer a value is, if it is one. -/
def asInt : Value → Option Int32
  | .int n => some n
  | .tuple _ => none

/-- The items of a tuple. -/
def asTuple : Value → Option (List Value)
  | .int _ => none
  | .tuple items => some items

mutual

/-- **The text of a value in messages.** A tuple stands in parentheses;
a comma behind a single item tells it from the item. -/
def display : Value → String
  | .int n => toString n.toInt
  | .tuple [v] => "(" ++ display v ++ ",)"
  | .tuple items => "(" ++ ", ".intercalate (displayItems items) ++ ")"

/-- The texts of the items of a tuple. -/
def displayItems : List Value → List String
  | [] => []
  | v :: rest => display v :: displayItems rest

end

/-- The literal of an integer. The least one is spelled as a difference,
because its magnitude is no literal of the same width. -/
def intLiteral (n : Int32) : String :=
  if n = Int32.minValue then "(-2147483647 - 1)" else toString n.toInt

mutual

/-- **The initializer of a value**: an integer literal, or the
initializers of a tuple's items in braces. -/
def literal : Value → String
  | .int n => intLiteral n
  | .tuple items => "\x7b" ++ ", ".intercalate (literalItems items) ++ "\x7d"

/-- The initializers of the items of a tuple. -/
def literalItems : List Value → List String
  | [] => []
  | v :: rest => literal v :: literalItems rest

end

/-- A value wrapped in a number of one-item tuples. -/
def nest (v : Value) : Nat → Value
  | 0 => v
  | n + 1 => .tuple [nest v n]

@[simp] theorem displayItems_eq_map (items : List Value) :
    displayItems items = items.map display := by
  induction items with
  | nil => rfl
  | cons v rest ih => simp [displayItems, ih]

@[simp] theorem literalItems_eq_map (items : List Value) :
    literalItems items = items.map literal := by
  induction items with
  | nil => rfl
  | cons v rest ih => simp [literalItems, ih]

end Value

end Specimen
