import Specimen.Schema.Default
import Specimen.Error
import Specimen.NameTable

/-!
# Checked constructors

Types, generators and functions are made by the operations of this
module, which refuse what would be ill-formed: names that are no
identifiers, empty ranges and lists, values and overrides of another
layout, calls that do not fit their function. What an operation refuses
it leaves as it was.
-/

namespace Specimen

/-- Refuses a name that is no identifier. -/
def checkIdentifier (name : String) : Except Error Unit :=
  if isIdentifier name then .ok () else .error (.invalidName name)

/-! ## Types -/

/-- The type of a range that has an element. -/
def Ty.ofRange (start stop : Int32) : Except Error Ty :=
  if start < stop then .ok (.range ⟨start, stop⟩)
  else .error (.invalidType (.emptyRange start stop))

/-- The type of some listed values, at least one and all of the listed
type. -/
def Ty.ofValues (ty : Ty) (items : List Value) : Except Error Ty :=
  if items.isEmpty then .error (.invalidType .noValues)
  else match items.find? fun v => !ty.accepts v with
    | some bad => .error (.invalidType (.valueMismatch bad ty.signature))
    | none => .ok (.values ⟨ty, items⟩)

/-! ## Products -/

namespace Product

/-- The product without fields. -/
def empty (name : Option String) : Product := ⟨name, []⟩

/-- A product with one more field, which takes its values from its
type. -/
def push (p : Product) (name : String) (ty : Ty) : Product :=
  ⟨p.name, p.fields ++ [⟨name, ty, ty.generator, ty.enumerator⟩]⟩

/-- A product with one more field of a new name; without a name it is
called by its position. -/
def add (p : Product) (name : Option String) (ty : Ty) : Except Error Product := do
  if let some n := name then checkIdentifier n
  let field := name.getD (autoName p.fields.length)
  if p.hasField field then throw (.duplicateField p.label field)
  pure (p.push field ty)

/-- **The product of some fields**, each with or without a name. -/
def ofFields (name : Option String) (fields : List (Option String × Ty)) :
    Except Error Product := do
  if let some n := name then checkIdentifier n
  fields.foldlM (fun p f => p.add f.1 f.2) (empty name)

/-- The anonymous product of some types, its fields called by
position. -/
def tuple (types : List Ty) : Product :=
  types.foldl (fun p ty => p.push (autoName p.fields.length) ty) (empty none)

/-- The least position from `index` on whose automatic name is free,
looked for at most `fuel` times. -/
def freeIndex (p : Product) (index : Nat) : Nat → Nat
  | 0 => index
  | fuel + 1 => if p.hasField (autoName index) then p.freeIndex (index + 1) fuel else index

/-- **A product with one more field**, anonymous, the fields taking
their values from their types. Of the positions from the number of
fields on, no more can be taken than there are fields. -/
def combine (p : Product) (ty : Ty) : Product :=
  let copy := p.fields.foldl (fun q f => q.push f.name f.ty) (empty none)
  copy.push (autoName (copy.freeIndex copy.fields.length copy.fields.length)) ty

/-- Refuses an override of another layout than its field. -/
def checkOverride (p : Product) (field : String) (output : Ty) : Except Error Unit :=
  match p.field? field with
  | none => .error (.unknownField p.label field)
  | some f =>
    if f.ty.signature = output.signature then .ok ()
    else .error (.invalidType (.fieldMismatch p.label field f.ty.signature output.signature))

/-- The product after a change to the field of a name. -/
def modify (p : Product) (field : String) (change : Field → Field) : Product :=
  ⟨p.name, p.fields.map fun f => if f.name == field then change f else f⟩

/-- **Takes a field's value from a generator.** -/
def setGenerator (p : Product) (field : String) (g : Generator) : Except Error Product := do
  p.checkOverride field g.outputType
  pure (p.modify field fun f => { f with generator := g })

/-- **Takes a field's values from an enumerator.** -/
def setEnumerator (p : Product) (field : String) (e : Enumerator) : Except Error Product := do
  p.checkOverride field e.outputType
  pure (p.modify field fun f => { f with enumerator := e })

/-- Takes a field's value, or values, from a type. -/
def set (p : Product) (field : String) (ty : Ty) : Except Error Product := do
  (← p.setGenerator field ty.generator).setEnumerator field ty.enumerator

/-- The generator of a field. -/
def getGenerator (p : Product) (field : String) : Except Error Generator :=
  match p.generatorOf? field with
  | some g => .ok g
  | none => .error (.unknownField p.label field)

/-- The enumerator of a field. -/
def getEnumerator (p : Product) (field : String) : Except Error Enumerator :=
  match p.enumeratorOf? field with
  | some e => .ok e
  | none => .error (.unknownField p.label field)

/-- The derived product without overrides. -/
def derive (p : Product) : Derived := ⟨.product p, [], []⟩

end Product

/-- The product of two types: a product gets one more field, any other
type is the first of two. -/
def Ty.mul (left right : Ty) : Product :=
  match left with
  | .product p => p.combine right
  | t => Product.tuple [t, right]

/-! ## Derived products -/

namespace Derived

/-- The derived product without overrides of its own. -/
def derive (d : Derived) : Derived := ⟨.derived d, [], []⟩

/-- Overrides a field's generator. -/
def setGenerator (d : Derived) (field : String) (g : Generator) : Except Error Derived := do
  d.basic.checkOverride field g.outputType
  pure ⟨d.parent, NameTable.insert field g d.generators, d.enumerators⟩

/-- Overrides a field's enumerator. -/
def setEnumerator (d : Derived) (field : String) (e : Enumerator) : Except Error Derived := do
  d.basic.checkOverride field e.outputType
  pure ⟨d.parent, d.generators, NameTable.insert field e d.enumerators⟩

/-- Overrides a field's generator and enumerator by those of a type. -/
def set (d : Derived) (field : String) (ty : Ty) : Except Error Derived := do
  (← d.setGenerator field ty.generator).setEnumerator field ty.enumerator

/-- The generator of a field. -/
def getGenerator (d : Derived) (field : String) : Except Error Generator :=
  match d.generatorOf? field with
  | some g => .ok g
  | none => .error (.unknownField d.basic.label field)

/-- The enumerator of a field. -/
def getEnumerator (d : Derived) (field : String) : Except Error Enumerator :=
  match d.enumeratorOf? field with
  | some e => .ok e
  | none => .error (.unknownField d.basic.label field)

end Derived

/-! ## Generators and functions -/

/-- The generator of the integers between two bounds. -/
def Generator.ofBounds (min max : Int32) : Except Error Generator :=
  if max < min then .error (.invalidType (.boundsOutOfOrder min max)) else .ok (.uniform min max)

/-- The generator of the run argument of a name. -/
def Generator.ofVariable (name : String) (ty : Ty) : Except Error Generator := do
  checkIdentifier name
  pure (.runArgument name ty)

namespace Function

/-- A function without parameters. -/
def ofBody (name : String) (returns : Ty) (body : FunctionBody) : Except Error Function := do
  checkIdentifier name
  pure ⟨name, returns, [], body⟩

/-- A function with one more parameter of a new name. -/
def addParam (f : Function) (name : String) (ty : Ty) : Except Error Function := do
  checkIdentifier name
  if f.params.any (·.name == name) then
    throw (.duplicateField ("parameters of " ++ f.name) name)
  pure { f with params := f.params ++ [⟨name, ty⟩] }

/-- Whether a function's body is in a file. -/
def isExternal (f : Function) : Bool :=
  match f.body with
  | .external _ => true
  | .inline _ => false

/-- Refuses arguments of other layouts than their parameters. -/
def checkArguments (f : Function) : List Param → List Generator → Except Error Unit
  | p :: params, g :: args =>
    if p.ty.signature = g.outputType.signature then f.checkArguments params args
    else .error (.invalidType
      (.argumentMismatch f.name p.name p.ty.signature g.outputType.signature))
  | _, _ => .ok ()

/-- **The generator that calls a function**, with one argument for each
parameter. -/
def call (f : Function) (args : List Generator) : Except Error Generator := do
  if args.length ≠ f.params.length then
    throw (.invalidType (.argumentCount f.name f.params.length args.length))
  f.checkArguments f.params args
  pure (.call f args)

end Function

end Specimen
