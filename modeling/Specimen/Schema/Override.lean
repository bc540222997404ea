import Specimen.Schema.Checked

/-!
# Overriding a field in place

Whoever holds a product, or a derived product, can take the values of a
field from somewhere else. The change is made **in place**, so when it
is refused, what is held then depends on how far the change has come. A
generator or an enumerator is checked before anything changes. A type
stands for both, and they are put in one after the other: should the
enumerator be refused, the generator is there already.
-/

namespace Specimen

/-- **Changes in place**: they succeed or fail, and leave something behind
in either case. -/
abbrev Edit (α : Type) := ExceptT Error (StateM α)

/-- Puts what an operation gives in place of what it was given, unless the
operation refuses. -/
def edit {α : Type} (operation : α → Except Error α) : Edit α Unit := do
  set (← operation (← get))

/-- **What a field is overridden by.** -/
inductive Override where
  /-- A type: by its generator and its enumerator. -/
  | ofType (ty : Ty)
  /-- A generator alone. -/
  | generator (g : Generator)
  /-- An enumerator alone. -/
  | enumerator (e : Enumerator)

/-- **Overrides a field in place**, of something that has operations to
set a field's generator and its enumerator. -/
def Override.applyTo {α : Type} (setGenerator : α → String → Generator → Except Error α)
    (setEnumerator : α → String → Enumerator → Except Error α) (field : String) :
    Override → Edit α Unit
  | ofType ty => do
    edit (setGenerator · field ty.generator)
    edit (setEnumerator · field ty.enumerator)
  | generator g => edit (setGenerator · field g)
  | enumerator e => edit (setEnumerator · field e)

/-- Overrides a field of a product. -/
def Product.override (field : String) (o : Override) : Edit Product Unit :=
  o.applyTo Product.setGenerator Product.setEnumerator field

/-- Overrides a field of a derived product. -/
def Derived.override (field : String) (o : Override) : Edit Derived Unit :=
  o.applyTo Derived.setGenerator Derived.setEnumerator field

end Specimen
