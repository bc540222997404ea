import Specimen.Path
import Specimen.Schema.Basic

/-!
# Canonical forms

A function's file may be spelled in many ways, and a type, a generator
or an enumerator may mention a function deep inside. The **canonical
form** of each of them has every file in its shortest spelling. Two of
them are the same when their canonical forms are equal: they are built
in the same way, overrides and defaults included, and name the same
files.
-/

namespace Specimen

/-- The canonical form of a function's body. -/
def FunctionBody.canonical : FunctionBody → FunctionBody
  | external file => external (Path.shortest file)
  | inline text => inline text

mutual

/-- **The canonical form of a type.** -/
def Ty.canonical : Ty → Ty
  | .int => .int
  | .range r => .range r
  | .values v => .values v.canonical
  | .product p => .product p.canonical
  | .derived d => .derived d.canonical

/-- The canonical form of a list of values. -/
def Values.canonical : Values → Values
  | ⟨ty, items⟩ => ⟨ty.canonical, items⟩

/-- The canonical form of a product. -/
def Product.canonical : Product → Product
  | ⟨name, fields⟩ => ⟨name, fieldsCanonical fields⟩

/-- The canonical forms of fields. -/
def fieldsCanonical : List Field → List Field
  | [] => []
  | f :: rest => f.canonical :: fieldsCanonical rest

/-- The canonical form of a field. -/
def Field.canonical : Field → Field
  | ⟨name, ty, generator, enumerator⟩ =>
    ⟨name, ty.canonical, generator.canonical, enumerator.canonical⟩

/-- The canonical form of a derived product. -/
def Derived.canonical : Derived → Derived
  | ⟨parent, generators, enumerators⟩ =>
    ⟨parent.canonical, generatorOverridesCanonical generators,
      enumeratorOverridesCanonical enumerators⟩

/-- The canonical forms of overridden generators. -/
def generatorOverridesCanonical : List (String × Generator) → List (String × Generator)
  | [] => []
  | (name, g) :: rest => (name, g.canonical) :: generatorOverridesCanonical rest

/-- The canonical forms of overridden enumerators. -/
def enumeratorOverridesCanonical : List (String × Enumerator) → List (String × Enumerator)
  | [] => []
  | (name, e) :: rest => (name, e.canonical) :: enumeratorOverridesCanonical rest

/-- The canonical form of a parent. -/
def Parent.canonical : Parent → Parent
  | .product p => .product p.canonical
  | .derived d => .derived d.canonical

/-- **The canonical form of a generator.** -/
def Generator.canonical : Generator → Generator
  | .uniform min max => .uniform min max
  | .values v => .values v.canonical
  | .product p parts => .product p.canonical (generatorsCanonical parts)
  | .call f args => .call f.canonical (generatorsCanonical args)
  | .runArgument name ty => .runArgument name ty.canonical

/-- The canonical forms of generators. -/
def generatorsCanonical : List Generator → List Generator
  | [] => []
  | g :: rest => g.canonical :: generatorsCanonical rest

/-- **The canonical form of an enumerator.** -/
def Enumerator.canonical : Enumerator → Enumerator
  | .range r => .range r
  | .values v => .values v.canonical
  | .product p parts => .product p.canonical (enumeratorsCanonical parts)
  | .once g => .once g.canonical

/-- The canonical forms of enumerators. -/
def enumeratorsCanonical : List Enumerator → List Enumerator
  | [] => []
  | e :: rest => e.canonical :: enumeratorsCanonical rest

/-- **The canonical form of a function.** -/
def Function.canonical : Function → Function
  | ⟨name, returns, params, body⟩ =>
    ⟨name, returns.canonical, paramsCanonical params, body.canonical⟩

/-- The canonical forms of parameters. -/
def paramsCanonical : List Param → List Param
  | [] => []
  | p :: rest => p.canonical :: paramsCanonical rest

/-- The canonical form of a parameter. -/
def Param.canonical : Param → Param
  | ⟨name, ty⟩ => ⟨name, ty.canonical⟩

end

end Specimen
