import Specimen.Value

/-!
# Layouts

The **layout** of a value is what has to be known to write it and to
read it back: that it is an integer, or that it is a tuple of named
fields with layouts of their own. Which values a type allows, and where
they come from, does not matter here.

`Layout.signature` spells a layout out as a text, which serves as the
key of everything that is shared between types of one layout, and
`Layout.accepts` says which values have it.
-/

namespace Specimen

mutual

/-- **Layouts** of values. -/
inductive Layout where
  /-- An integer. -/
  | int
  /-- A tuple of fields, with or without a name for all of it. -/
  | product (name : Option String) (fields : List LayoutField)

/-- **A field of a layout**. -/
structure LayoutField where
  /-- The field's name. -/
  name : String
  /-- The layout of its values. -/
  layout : Layout

end

namespace Layout

mutual

/-- Whether two layouts are the same. -/
def decEq : (a b : Layout) → Decidable (a = b)
  | .int, .int => isTrue rfl
  | .product m fs, .product n gs =>
    have := decEqFields fs gs
    decidable_of_iff (m = n ∧ fs = gs) (by simp)
  | .int, .product _ _ => isFalse nofun
  | .product _ _, .int => isFalse nofun

/-- Whether two lists of fields are the same. -/
def decEqFields : (a b : List LayoutField) → Decidable (a = b)
  | [], [] => isTrue rfl
  | ⟨m, a⟩ :: fs, ⟨n, b⟩ :: gs =>
    have := decEq a b
    have := decEqFields fs gs
    decidable_of_iff ((m = n ∧ a = b) ∧ fs = gs) (by simp)
  | [], _ :: _ => isFalse nofun
  | _ :: _, [] => isFalse nofun

end

instance : DecidableEq Layout := decEq

mutual

/-- **The signature of a layout**: `int`, or the name of the product
followed by its fields' names and signatures in braces. -/
def signature : Layout → String
  | .int => "int"
  | .product name fields =>
    name.getD "" ++ "\x7b" ++ ",".intercalate (fieldSignatures fields) ++ "\x7d"

/-- The texts of fields in a signature. -/
def fieldSignatures : List LayoutField → List String
  | [] => []
  | ⟨name, layout⟩ :: rest => (name ++ ":" ++ layout.signature) :: fieldSignatures rest

end

mutual

/-- **Whether a value has a layout.** -/
def accepts : Layout → Value → Bool
  | .int, .int _ => true
  | .int, .tuple _ => false
  | .product _ _, .int _ => false
  | .product _ fields, .tuple items => acceptsFields fields items

/-- Whether values have the layouts of fields, one for one. -/
def acceptsFields : List LayoutField → List Value → Bool
  | [], [] => true
  | ⟨_, layout⟩ :: fields, v :: items => layout.accepts v && acceptsFields fields items
  | [], _ :: _ => false
  | _ :: _, [] => false

end

/-- How messages call a product. -/
def label (name : Option String) : String := name.getD "(anonymous)"

example : (Layout.product (some "P") [⟨"x", .int⟩, ⟨"y", .product none []⟩]).signature =
    "P\x7bx:int,y:\x7b\x7d\x7d" := by decide +kernel

end Layout

end Specimen
