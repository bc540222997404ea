import Specimen.Value

/-!
# Types, generators and enumerators

A **type** describes values: integers, a range or a list of allowed
ones, or a product of named fields. What a type does not say is where
its values come from. That is the part of a **generator**, which yields
one value each time it is asked, and of an **enumerator**, which yields
a finite sequence.

The two sides depend on each other. Every field of a product carries
the generator and the enumerator its values are taken from, at first
those of the field's type; a generator in turn knows the type it
produces, and may call a function whose parameters are typed. So all of
these notions are defined together.

Only plain data is defined here. The constructors that check what they
are given are beside the operations on each notion: a value of these
types that did not come from them may be ill-formed, for instance have
two fields of one name.
-/

namespace Specimen

/-- **A range** of integers, from `start` up to but not including
`stop`. -/
structure Range where
  /-- The least element. -/
  start : Int32
  /-- The least integer above all elements. -/
  stop : Int32
deriving DecidableEq

/-- **Where a function's body is**: in a file of its own, or given with
it. -/
inductive FunctionBody where
  /-- Defined in a file, relative to the source directory. -/
  | external (file : String)
  /-- Given as text. -/
  | inline (text : String)
deriving DecidableEq

mutual

/-- **Types** of values. -/
inductive Ty where
  /-- All integers. -/
  | int
  /-- The integers of a range. -/
  | range (r : Range)
  /-- The listed values. -/
  | values (v : Values)
  /-- The tuples of a product. -/
  | product (p : Product)
  /-- The tuples of a specialized product. -/
  | derived (d : Derived)

/-- **A list of values** of one type. -/
structure Values where
  /-- The type of the values. -/
  ty : Ty
  /-- The values. -/
  items : List Value

/-- **A product**: a tuple of named fields, with or without a name of
its own. -/
structure Product where
  /-- The product's name. -/
  name : Option String
  /-- The fields, in order. -/
  fields : List Field

/-- **A field** of a product. -/
structure Field where
  /-- The field's name. -/
  name : String
  /-- The type of its values. -/
  ty : Ty
  /-- Where a generator of the product takes the field's value from. -/
  generator : Generator
  /-- Where an enumerator of the product takes the field's values
  from. -/
  enumerator : Enumerator

/-- **A derived product**: a product seen through overrides of some of
its fields' generators and enumerators. Its parent is left as it is. -/
structure Derived where
  /-- What the derived product specializes. -/
  parent : Parent
  /-- The overridden generators, sorted by field. -/
  generators : List (String × Generator)
  /-- The overridden enumerators, sorted by field. -/
  enumerators : List (String × Enumerator)

/-- **What a derived product specializes**. -/
inductive Parent where
  /-- A product. -/
  | product (p : Product)
  /-- Another derived product. -/
  | derived (d : Derived)

/-- **Generators**: each yields one value whenever it is asked. -/
inductive Generator where
  /-- An integer between two bounds, both included. -/
  | uniform (min max : Int32)
  /-- One of the listed values. -/
  | values (v : Values)
  /-- A tuple of a product, one part for each field. -/
  | product (p : Product) (parts : List Generator)
  /-- What a function returns for generated arguments. -/
  | call (f : Function) (args : List Generator)
  /-- The run argument of a name. -/
  | runArgument (name : String) (ty : Ty)

/-- **Enumerators**: each yields a finite sequence of values. -/
inductive Enumerator where
  /-- The integers of a range, in order. -/
  | range (r : Range)
  /-- The listed values, in order. -/
  | values (v : Values)
  /-- The tuples of a product over its parts' sequences, the last field
  varying fastest. -/
  | product (p : Product) (parts : List Enumerator)
  /-- A single generated value. -/
  | once (g : Generator)

/-- **A function** that generators can call. -/
structure Function where
  /-- The function's name. -/
  name : String
  /-- The type it returns. -/
  returns : Ty
  /-- The parameters, in order. -/
  params : List Param
  /-- Where its body is. -/
  body : FunctionBody

/-- **A parameter** of a function. -/
structure Param where
  /-- The parameter's name. -/
  name : String
  /-- The type of its arguments. -/
  ty : Ty

end

instance : Inhabited Ty := ⟨.int⟩

instance : Inhabited Generator := ⟨.uniform 0 0⟩

instance : Inhabited Enumerator := ⟨.once default⟩

end Specimen
