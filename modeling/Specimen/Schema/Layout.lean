import Specimen.Layout.Wire
import Specimen.Schema.Equality
import Specimen.Text.Identifier

/-!
# The layout of a type

A type determines a layout, and only part of the type does so. Ranges
and lists of values have the layout of what they restrict, a derived
product that of the product it specializes, and generators play no
role. What remains is the **basic type**, the integers or a product.
-/

namespace Specimen

/-- The product at the root of a derivation. -/
def Derived.basic : Derived → Product
  | ⟨.product p, _, _⟩ => p
  | ⟨.derived d, _, _⟩ => d.basic

/-- The product that a type's values are tuples of, unless they are
integers. -/
def Ty.basicProduct? : Ty → Option Product
  | .int => none
  | .range _ => none
  | .values ⟨ty, _⟩ => ty.basicProduct?
  | .product p => some p
  | .derived d => some d.basic

/-- **The basic type**: the integers or a product. -/
def Ty.basic (t : Ty) : Ty :=
  match t.basicProduct? with
  | none => .int
  | some p => .product p

/-! ## The fields of a product -/

namespace Product

/-- How messages call a product. -/
def label (p : Product) : String := Layout.label p.name

/-- The names of a product's fields. -/
def names (p : Product) : List String := p.fields.map Field.name

/-- The types of a product's fields. -/
def types (p : Product) : List Ty := p.fields.map Field.ty

/-- The field of a name. -/
def field? (p : Product) (name : String) : Option Field := p.fields.find? (·.name == name)

/-- Whether a product has a field of a name. -/
def hasField (p : Product) (name : String) : Bool := p.fields.any (·.name == name)

end Product

/-! ## Layouts -/

mutual

/-- **The layout of a type's values.** -/
def Ty.layout : Ty → Layout
  | .int => .int
  | .range _ => .int
  | .values ⟨ty, _⟩ => ty.layout
  | .product p => p.layout
  | .derived d => d.layout

/-- The layout of a product's tuples. -/
def Product.layout : Product → Layout
  | ⟨name, fields⟩ => .product name (fieldLayouts fields)

/-- The layouts of fields. -/
def fieldLayouts : List Field → List LayoutField
  | [] => []
  | ⟨name, ty, _, _⟩ :: rest => ⟨name, ty.layout⟩ :: fieldLayouts rest

/-- The layout of a derived product: that of the product at its root. -/
def Derived.layout : Derived → Layout
  | ⟨.product p, _, _⟩ => p.layout
  | ⟨.derived d, _, _⟩ => d.layout

end

/-- **The signature of a type**, equal for types of one layout. -/
def Ty.signature (t : Ty) : String := t.layout.signature

/-- The signature of a product. -/
def Product.signature (p : Product) : String := p.layout.signature

/-- **Whether a value has a type's layout.** The values that a range or a
list leaves out have it as well. -/
def Ty.accepts (t : Ty) (v : Value) : Bool := t.layout.accepts v

/-- **Reads one value of a type.** -/
def Ty.read (t : Ty) (s : Stream) : Except Error (Option Value) × Stream := t.layout.read s

@[simp] theorem fieldLayouts_eq_map (fields : List Field) :
    fieldLayouts fields = fields.map fun f => ⟨f.name, f.ty.layout⟩ := by
  induction fields with
  | nil => rfl
  | cons f rest ih => cases f; simp [fieldLayouts, ih]

theorem Derived.layout_eq_basic : (d : Derived) → d.layout = d.basic.layout
  | ⟨.product _, _, _⟩ => by simp [Derived.layout, Derived.basic]
  | ⟨.derived d, _, _⟩ => by
    simpa [Derived.layout, Derived.basic] using Derived.layout_eq_basic d

/-- **A type has the layout of its basic product**, or that of an
integer. -/
theorem Ty.layout_eq (t : Ty) :
    t.layout = (t.basicProduct?.map Product.layout).getD .int := by
  match t with
  | .int => simp [Ty.layout, Ty.basicProduct?]
  | .range _ => simp [Ty.layout, Ty.basicProduct?]
  | .values ⟨ty, _⟩ => simpa [Ty.layout, Ty.basicProduct?] using Ty.layout_eq ty
  | .product _ => simp [Ty.layout, Ty.basicProduct?]
  | .derived d => simp [Ty.layout, Ty.basicProduct?, Derived.layout_eq_basic]

theorem Ty.layout_basic (t : Ty) : t.basic.layout = t.layout := by
  rw [Ty.layout_eq t, Ty.basic]
  cases t.basicProduct? <;> simp [Ty.layout]

end Specimen
