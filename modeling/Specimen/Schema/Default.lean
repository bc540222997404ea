import Specimen.Schema.Layout

/-!
# Where values come from

Every type has a generator and an enumerator of its own, and every
generator and enumerator has a type of what it yields. A derived product
looks a field up in its own overrides first and then in its parent's, so
its generator is that of the basic product with the nearest override in
each part.
-/

namespace Specimen

/-! ## Looking up a field -/

/-- The generator of a field, if the product has the field. -/
def Product.generatorOf? (p : Product) (field : String) : Option Generator :=
  (p.field? field).map Field.generator

/-- The enumerator of a field, if the product has the field. -/
def Product.enumeratorOf? (p : Product) (field : String) : Option Enumerator :=
  (p.field? field).map Field.enumerator

/-- The generator a derived product uses for a field: its own override,
or what its parent uses. -/
def Derived.generatorOf? : Derived → String → Option Generator
  | ⟨.product p, gs, _⟩, field => (gs.lookup field).or (p.generatorOf? field)
  | ⟨.derived d, gs, _⟩, field => (gs.lookup field).or (d.generatorOf? field)

/-- The enumerator a derived product uses for a field: its own override,
or what its parent uses. -/
def Derived.enumeratorOf? : Derived → String → Option Enumerator
  | ⟨.product p, _, es⟩, field => (es.lookup field).or (p.enumeratorOf? field)
  | ⟨.derived d, _, es⟩, field => (es.lookup field).or (d.enumeratorOf? field)

/-- A derived product followed by its derived ancestors, nearest
first. -/
def Derived.chain : Derived → List Derived
  | d@⟨.product _, _, _⟩ => [d]
  | d@⟨.derived parent, _, _⟩ => d :: parent.chain

/-! ## What a type yields by itself -/

/-- The generator of a product: a part for each field. -/
def Product.generator (p : Product) : Generator := .product p (p.fields.map Field.generator)

/-- The enumerator of a product: a part for each field. -/
def Product.enumerator (p : Product) : Enumerator := .product p (p.fields.map Field.enumerator)

/-- The generator of a derived product. -/
def Derived.generator (d : Derived) : Generator :=
  .product d.basic (d.basic.names.filterMap d.generatorOf?)

/-- The enumerator of a derived product. -/
def Derived.enumerator (d : Derived) : Enumerator :=
  .product d.basic (d.basic.names.filterMap d.enumeratorOf?)

/-- **The generator of a type.** -/
def Ty.generator : Ty → Generator
  | .int => .uniform Int32.minValue Int32.maxValue
  | .range r => .uniform r.start (r.stop - 1)
  | .values v => .values v
  | .product p => p.generator
  | .derived d => d.generator

/-- **The enumerator of a type.** The integers are too many to be
listed: their enumerator yields a single one. -/
def Ty.enumerator : Ty → Enumerator
  | .int => .once (Ty.generator .int)
  | .range r => .range r
  | .values v => .values v
  | .product p => p.enumerator
  | .derived d => d.enumerator

/-! ## What is yielded -/

/-- **The type of what a generator yields.** -/
def Generator.outputType : Generator → Ty
  | .uniform _ _ => .int
  | .values v => v.ty
  | .product p _ => .product p
  | .call f _ => f.returns
  | .runArgument _ ty => ty

/-- **The type of what an enumerator yields.** -/
def Enumerator.outputType : Enumerator → Ty
  | .range r => .range r
  | .values v => v.ty
  | .product p _ => .product p
  | .once g => g.outputType

/-- A type's generator yields values of its layout. -/
theorem Ty.layout_outputType_generator (t : Ty) : t.generator.outputType.layout = t.layout := by
  cases t with
  | int => rfl
  | range => rfl
  | values v => cases v; simp [Ty.generator, Generator.outputType, Ty.layout]
  | product => simp [Ty.generator, Product.generator, Generator.outputType]
  | derived d =>
    simp [Ty.generator, Derived.generator, Generator.outputType, Ty.layout,
      Derived.layout_eq_basic]

/-- A type's enumerator yields values of its layout. -/
theorem Ty.layout_outputType_enumerator (t : Ty) :
    t.enumerator.outputType.layout = t.layout := by
  cases t with
  | int => rfl
  | range => rfl
  | values v => cases v; simp [Ty.enumerator, Enumerator.outputType, Ty.layout]
  | product => simp [Ty.enumerator, Product.enumerator, Enumerator.outputType]
  | derived d =>
    simp [Ty.enumerator, Derived.enumerator, Enumerator.outputType, Ty.layout,
      Derived.layout_eq_basic]

end Specimen
